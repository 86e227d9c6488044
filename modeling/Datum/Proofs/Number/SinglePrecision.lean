import Datum.Proofs.Number.DoubleOrder

/-!
# Rounding to single precision

A double becomes the nearest number of 24 bits, or infinity. Like rounding to doubles this does not
turn the order around, and it keeps the numbers of single precision.
-/

set_option autoImplicit false

namespace Datum

open Number

namespace Double

/-- The magnitude of a rounded magnitude, which may exceed infinity. -/
def singleMagnitude (n : Nat) : Nat :=
  if n = top then top
  else
    let (num, den) := ratio n
    if num = 0 then n
    else
      let (m, q) := roundBinary 24 (-149) num den
      if 0x100000000000000000000000000000000 ≤ m * Nat.pow 2 q.toNat then top
      else
        let (num, den) := scaled 2 m q
        nearest num den

theorem toSingle_number (negative : Bool) (n : Fin (top + 1)) :
    toSingle (.number negative n) = ofMagnitude negative (singleMagnitude n.val) := by
  have hself : ofMagnitude negative n.val = .number negative n := by
    simp only [ofMagnitude, Nat.min_eq_left (Nat.le_of_lt_succ n.isLt)]
  simp only [toSingle, singleMagnitude]
  split
  next htop => rw [← hself, htop]
  split
  next => exact hself.symm
  split
  next => rfl
  next => rfl

@[simp] theorem singleMagnitude_top : singleMagnitude top = top := if_pos rfl

@[simp] theorem singleMagnitude_zero : singleMagnitude 0 = 0 := by decide

/-- A finite magnitude is rounded to 24 bits, and then it overflows or is one again. -/
theorem singleMagnitude_eq {n : Nat} (hpos : 0 < n) (htop : n < top) : ∃ m q,
    RoundsTo 24 (-149) (magnitudeValue n) m q ∧
      singleMagnitude n = if (2 ^ 128 : ℚ) ≤ m * 2 ^ q then top
        else nearest (scaled 2 m q).1 (scaled 2 m q).2 := by
  have hnum : (ratio n).1 ≠ 0 := by
    have hvalue : 0 < magnitudeValue n := magnitudeValue_zero ▸ magnitudeValue_strictMono hpos
    intro hzero
    rw [← ratio_value, hzero, Nat.cast_zero, zero_div] at hvalue
    exact hvalue.false
  have hrounds := roundBinary_roundsTo 24 (-149) hnum (ratio_den_ne_zero n)
  rw [ratio_value] at hrounds
  refine ⟨_, _, hrounds, ?_⟩
  simp only [singleMagnitude, if_neg htop.ne, if_neg hnum]
  generalize roundBinary 24 (-149) (ratio n).1 (ratio n).2 = r at hrounds
  obtain ⟨m, q⟩ := r
  have hm : m ≤ 2 ^ 24 := hrounds.le_two_pow (by decide)
  have hoverflow : 0x100000000000000000000000000000000 ≤ m * Nat.pow 2 q.toNat ↔
      (2 ^ 128 : ℚ) ≤ m * 2 ^ q := by
    rcases le_or_gt 0 q with hq | hq
    · obtain ⟨k, rfl⟩ := Int.eq_ofNat_of_zero_le hq
      rw [Int.toNat_natCast, zpow_natCast, ← Nat.cast_le (α := ℚ)]
      norm_num
    · -- a unit below one leaves the significand small
      have hunit : (2 : ℚ) ^ q ≤ 1 := zpow_le_one_of_nonpos₀ one_le_two hq.le
      have hsmall : (m : ℚ) * 2 ^ q ≤ 2 ^ 24 * 1 := by
        gcongr
        exact_mod_cast hm
      rw [show q.toNat = 0 by omega]
      refine iff_of_false (by simp only [Nat.pow_eq, pow_zero]; omega) (not_le.2 ?_)
      exact hsmall.trans_lt (by norm_num)
  simp only [hoverflow]

theorem min_singleMagnitude_mono {a b : Nat} (h : a ≤ b) (hb : b ≤ top) :
    min (singleMagnitude a) top ≤ min (singleMagnitude b) top := by
  rcases hb.lt_or_eq with hb | rfl
  · rcases Nat.eq_zero_or_pos a with rfl | hpos
    · simp
    obtain ⟨m, p, hm, ha⟩ := singleMagnitude_eq hpos (h.trans_lt hb)
    obtain ⟨n, q, hn, hb⟩ := singleMagnitude_eq (hpos.trans_le h) hb
    have hle := hm.mono (by decide) hn (magnitudeValue_strictMono.monotone h)
    rw [ha, hb]
    split_ifs with hover hover'
    · exact le_rfl
    · exact absurd (hover.trans hle) hover'
    · rw [min_self]
      exact min_le_right _ _
    · refine min_le_min_right _ (nearest_mono ?_ ?_ ?_)
      · exact (scaled_den_pos two_ne_zero _ _).ne'
      · exact (scaled_den_pos two_ne_zero _ _).ne'
      · rwa [scaled_value two_ne_zero, scaled_value two_ne_zero]
  · simp

theorem rank_le_top (x : Double) : x.rank ≤ top + 1 := by
  cases x with
  | nan => exact le_rfl
  | number negative n => exact (rank_number_lt negative n).le

theorem rank_toSingle_mono {x y : Double} (h : x.rank ≤ y.rank) :
    x.toSingle.rank ≤ y.toSingle.rank := by
  cases y with
  | nan => exact rank_le_top _
  | number s b =>
    cases x with
    | nan => exact absurd h (not_le.2 (rank_number_lt s b))
    | number r a =>
      rw [toSingle_number, toSingle_number, rank_ofMagnitude, rank_ofMagnitude]
      have ha := a.isLt
      have hb := b.isLt
      cases r <;> cases s <;> simp only [rank, Bool.false_eq_true, if_true, if_false] at h ⊢
      · have := min_singleMagnitude_mono (a := a) (b := b) (by omega) (by omega)
        omega
      · omega
      · omega
      · have := min_singleMagnitude_mono (a := b) (b := a) (by omega) (by omega)
        omega

theorem toSingle_ofRat {x : ℚ} (h : InFormat 24 (-149) x) (hx : |x| < 2 ^ 128) :
    (ofRat x).toSingle = ofRat x := by
  have hbound : (2 : ℚ) ^ 128 ≤ 2 ^ 1024 := pow_le_pow_right₀ one_le_two (by decide)
  obtain ⟨hvalue, htop⟩ := nearest_lt_top (h.mono (by decide) (by decide)) (hx.trans_le hbound)
  rw [ofRat, ofRatio, ofMagnitude, toSingle_number]
  simp only [Nat.min_eq_left htop.le]
  generalize nearest x.num.natAbs x.den = n at hvalue htop
  have hkept : singleMagnitude n = n := by
    rcases Nat.eq_zero_or_pos n with rfl | hpos
    · exact singleMagnitude_zero
    obtain ⟨k, p, hk, hlt, hp⟩ := h
    obtain ⟨m, q, hrounds, hsingle⟩ := singleMagnitude_eq hpos htop
    have hexact := hrounds.exact (hvalue.trans hk) hlt hp
    have hscaled := scaled_value two_ne_zero m q
    rw [hsingle, if_neg (by rw [hexact, hvalue]; exact not_le.2 hx), ← nearest_ratio n]
    refine nearest_congr (scaled_den_pos two_ne_zero _ _).ne' (ratio_den_ne_zero n) ?_
    rw [hscaled, ratio_value, ← hexact]
    push_cast
    rfl
  rw [hkept]
  simp only [ofMagnitude, Nat.min_eq_left htop.le]

end Double

end Datum
