import Datum.Proofs.Number.DoubleOrder
import Datum.Proofs.Number.Rounding

/-!
# Integral doubles

The double of a natural number has that number rounded to 53 bits for its value. Beyond `2 ^ 53` one
less than an integral double is rounded back to it, or to the next smaller even number where it lies
halfway between the two and this is the rule for halves.
-/

set_option autoImplicit false

namespace Datum

namespace Number

variable {bits m m' : Nat} {least least' q q' : Int} {x : ℚ}

/-- The least exponent matters only to numbers that are small. -/
theorem RoundsTo.unique (h : RoundsTo bits least x m q) (h' : RoundsTo bits least' x m' q')
    (hleast : least ≤ Int.log 2 x - (bits - 1 : Nat))
    (hleast' : least' ≤ Int.log 2 x - (bits - 1 : Nat)) : m = m' ∧ q = q' := by
  have hq : q = q' := by
    rw [h.unit, h'.unit]
    omega
  subst hq
  exact ⟨by exact_mod_cast h.nearest.unique h'.nearest, rfl⟩

theorem log_natCast_ge {n k : Nat} (hn : 2 ^ k ≤ n) : (k : Int) ≤ Int.log 2 (n : ℚ) := by
  have hpos : (0 : ℚ) < n := Nat.cast_pos.2 ((Nat.two_pow_pos k).trans_le hn)
  refine (Int.zpow_le_iff_le_log one_lt_two hpos).1 ?_
  rw [zpow_natCast]
  exact_mod_cast hn

theorem round53_natCast {n : Nat} (hn : 2 ^ 53 < n) :
    ∃ m u : Nat, RoundsTo 53 0 n m u ∧ round53 n = (m * 2 ^ u : Nat) := by
  have hne : n ≠ 0 := by omega
  have hrounds := roundBinary_roundsTo 53 0 hne one_ne_zero
  rw [Nat.cast_one, div_one] at hrounds
  refine ⟨(roundBinary 53 0 n 1).1, (roundBinary 53 0 n 1).2.toNat, ?_, ?_⟩
  · rwa [Int.toNat_of_nonneg hrounds.least_le]
  · rw [round53, if_neg (by omega)]
    simp only [Int.natAbs_natCast]
    rw [if_neg (by omega)]
    rfl

/-- Halfway between two neighbours the even one is taken, and within a quarter the nearer one. -/
theorem isNearestEven_pred (a : Nat) {u : Nat} (hu : 0 < u) :
    IsNearestEven (a - 1 / 2 ^ u) (if u = 1 ∧ a % 2 = 1 then a - 1 else a : Int) := by
  rcases Nat.lt_or_ge 1 u with hlt | hle
  · have hunit : (0 : ℚ) < 1 / 2 ^ u := by positivity
    have hquarter : (1 : ℚ) / 2 ^ u ≤ 1 / 2 ^ 2 :=
      one_div_pow_le_one_div_pow_of_le (by norm_num) hlt
    rw [if_neg (by omega)]
    refine .of_lt (abs_lt.2 ⟨?_, ?_⟩) <;> push_cast <;> linarith
  · obtain rfl : u = 1 := by omega
    split
    next hodd =>
      have heven : Even ((a : Int) - 1) := Int.even_iff.2 (by omega)
      refine .of_even (abs_le.2 ⟨?_, ?_⟩) heven <;> push_cast <;> linarith
    next hodd =>
      have heven : Even (a : Int) := Int.even_iff.2 (by omega)
      refine .of_even (abs_le.2 ⟨?_, ?_⟩) heven <;> push_cast <;> linarith

/-- A number of the format is a multiple of the unit of its predecessor. -/
theorem exists_mul_two_pow {n p u : Nat} (h : (n : ℚ) = m * 2 ^ q) (hm : m < 2 ^ bits)
    (hpos : 0 < p) (hp : p ≤ n) (hu : (u : Int) ≤ Int.log 2 (p : ℚ) - (bits - 1 : Nat))
    (hbits : 0 < bits) : ∃ a : Nat, n = a * 2 ^ u := by
  have hmono : Int.log 2 (p : ℚ) ≤ Int.log 2 (n : ℚ) :=
    Int.log_mono_right (Nat.cast_pos.2 hpos) (Nat.cast_le.2 hp)
  have hlog := log_lt_of_bits (Nat.cast_pos.2 (hpos.trans_le hp)) h hm
  have hsplit : q = (q - u).toNat + u := by omega
  refine ⟨m * 2 ^ (q - u).toNat, ?_⟩
  rw [hsplit, zpow_add₀ two_ne_zero, zpow_natCast, zpow_natCast, ← mul_assoc] at h
  exact_mod_cast h

theorem round53_pred {n : Nat} (hm : m < 2 ^ 53) (h : (n : ℚ) = m * 2 ^ q) (hn : 2 ^ 53 < n) :
    round53 ((n : Int) - 1) = if n % 4 = 2 then (n : Int) - 2 else n := by
  obtain ⟨p, rfl⟩ : ∃ p, n = p + 1 := ⟨n - 1, by omega⟩
  have hlog : ((53 : Nat) : Int) ≤ Int.log 2 (p : ℚ) := log_natCast_ge (by omega)
  have heven : (p + 1) % 2 = 0 := by
    obtain ⟨a, ha⟩ := exists_mul_two_pow (u := 1) h hm (by omega) (Nat.le_succ p) (by omega)
      (by decide)
    omega
  obtain ⟨m', u, hrounds, hround⟩ := round53_natCast (n := p) (by omega)
  have hunit : (u : Int) = Int.log 2 (p : ℚ) - (53 - 1 : Nat) := by
    have := hrounds.unit
    omega
  obtain ⟨a, ha⟩ := exists_mul_two_pow h hm (by omega) (Nat.le_succ p) hunit.le (by decide)
  have hp : (p : ℚ) / 2 ^ (u : Int) = a - 1 / 2 ^ u := by
    have hcast : (p : ℚ) + 1 = a * 2 ^ u := by exact_mod_cast ha
    rw [eq_sub_of_add_eq hcast, zpow_natCast, sub_div, mul_div_cancel_right₀ _ (by positivity)]
  have hsignificand := hrounds.nearest.unique (hp ▸ isNearestEven_pred a (by omega))
  have hshift : ((p + 1 : Nat) : Int) - 1 = p := by omega
  rw [hshift, hround, Nat.cast_mul, hsignificand, Nat.cast_pow]
  -- halfway between two neighbours only if the unit is two, and then the even one is taken
  rcases Nat.lt_or_ge 1 u with hlt | hle
  · have hfour : 2 ^ 2 ∣ p + 1 := ha ▸ (Nat.pow_dvd_pow 2 hlt).mul_left a
    rw [if_neg (by omega), if_neg (by omega), ha]
    push_cast
    rfl
  · obtain rfl : u = 1 := by omega
    split
    next hodd =>
      rw [if_pos (by omega), ha]
      push_cast
      omega
    next hodd =>
      rw [if_neg (by omega), ha]
      push_cast
      rfl

end Number

open Number

namespace Double

variable {k n : Nat}

theorem magnitudeValue_nearest_natCast (n : Nat) : magnitudeValue (nearest n 1) = round53 n := by
  rcases Nat.lt_or_ge (2 ^ 53) n with hlt | hle
  · have hne : n ≠ 0 := by omega
    obtain ⟨m, q, hrounds, hvalue⟩ := exists_roundsTo hne one_ne_zero
    obtain ⟨m', u, hrounds', hround⟩ := round53_natCast hlt
    have hlog : ((53 : Nat) : Int) ≤ Int.log 2 (n : ℚ) := log_natCast_ge hlt.le
    rw [Nat.cast_one, div_one] at hrounds
    obtain ⟨rfl, rfl⟩ := hrounds.unique hrounds' (by omega) (by omega)
    rw [hvalue, hround]
    push_cast
    rw [zpow_natCast]
  · have hformat : InFormat 53 (-1074) (n : Int) := inFormat_intCast (by decide) hle (by decide)
    obtain ⟨m, q, hm, hlt, hq⟩ := hformat
    have hquotient : (n / (1 : Nat) : ℚ) = m * 2 ^ q := by
      rw [Nat.cast_one, div_one, ← hm, Int.cast_natCast, Nat.abs_cast]
    have hkept := magnitudeValue_nearest one_ne_zero hquotient hlt hq
    rw [hkept, round53_of_le (by omega), Nat.cast_one, div_one, Int.cast_natCast]

theorem ratio_of_value (h : magnitudeValue n = k) : (ratio n).1 = k * (ratio n).2 := by
  have hden : ((ratio n).2 : ℚ) ≠ 0 := Nat.cast_ne_zero.2 (ratio_den_ne_zero n)
  rw [← ratio_value, div_eq_iff hden] at h
  exact_mod_cast h

theorem trunc?_of_value {m : Fin (top + 1)} (negative : Bool) (hm : m.val ≠ top)
    (h : magnitudeValue m.val = k) : (number negative m).trunc? = some (signed negative k) := by
  have hratio := ratio_of_value h
  have hden : 0 < (ratio m.val).2 := Nat.pos_of_ne_zero (ratio_den_ne_zero m.val)
  simp only [trunc?, if_neg hm, hratio, Nat.mul_div_cancel _ hden]

theorem exists_round53_natCast (n : Nat) : ∃ r : Nat, round53 n = r := by
  refine Int.eq_ofNat_of_zero_le ?_
  have hnonneg : magnitudeValue 0 ≤ magnitudeValue (nearest n 1) :=
    magnitudeValue_strictMono.monotone (Nat.zero_le _)
  rw [magnitudeValue_zero, magnitudeValue_nearest_natCast] at hnonneg
  exact_mod_cast hnonneg

theorem trunc?_ofInt_natCast (h : nearest n 1 < top) : (ofInt n).trunc? = some (round53 n) := by
  obtain ⟨r, hr⟩ := exists_round53_natCast n
  have hvalue := magnitudeValue_nearest_natCast n
  have hnegative : decide ((n : Int) < 0) = false := decide_eq_false (by omega)
  rw [hr, Int.cast_natCast] at hvalue
  rw [hr, ofInt, ofRatio, ofMagnitude, hnegative, Int.natAbs_natCast]
  simp only [Nat.min_eq_left h.le]
  exact trunc?_of_value false h.ne hvalue

theorem toInt?_eq_some {x : Double} {n : Int} : x.toInt? = some n ↔
    ∃ (negative : Bool) (m : Fin (top + 1)) (k : Nat), x = .number negative m ∧ m.val ≠ top ∧
      magnitudeValue m.val = k ∧ n = signed negative k := by
  constructor
  · intro h
    cases x with
    | nan => cases h
    | number negative m =>
      simp only [toInt?] at h
      split at h
      · cases h
      next hm =>
        split at h
        next hdvd =>
          have hden : ((ratio m.val).2 : ℚ) ≠ 0 := Nat.cast_ne_zero.2 (ratio_den_ne_zero m.val)
          refine ⟨negative, m, _, rfl, hm, ?_, (Option.some.inj h).symm⟩
          rw [← ratio_value, div_eq_iff hden]
          exact_mod_cast (Nat.div_mul_cancel (Nat.dvd_of_mod_eq_zero hdvd)).symm
        next => cases h
  · rintro ⟨negative, m, k, rfl, hm, hvalue, rfl⟩
    have hden : 0 < (ratio m.val).2 := Nat.pos_of_ne_zero (ratio_den_ne_zero m.val)
    simp only [toInt?, if_neg hm, ratio_of_value hvalue, Nat.mul_mod_left, if_true,
      Nat.mul_div_cancel _ hden]

end Double

end Datum
