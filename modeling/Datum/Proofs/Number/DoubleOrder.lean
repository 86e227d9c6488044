import Datum.Number.Decimal
import Datum.Proofs.Number.Binary
import Datum.Proofs.Number.DecimalValue

/-!
# Rounding to doubles

The double of an integer, a decimal or a quotient depends on its value alone, and it does not turn
the order around. Numbers that the format has keep their strict order.
-/

set_option autoImplicit false

namespace Datum

namespace Number

def InFormat (bits : Nat) (least : Int) (x : ℚ) : Prop :=
  ∃ (n : Nat) (p : Int), |x| = n * 2 ^ p ∧ n < 2 ^ bits ∧ least ≤ p

theorem InFormat.mono {bits bits' : Nat} {least least' : Int} {x : ℚ}
    (h : InFormat bits least x) (hbits : bits ≤ bits') (hleast : least' ≤ least) :
    InFormat bits' least' x := by
  obtain ⟨n, p, hx, hn, hp⟩ := h
  exact ⟨n, p, hx, hn.trans_le (Nat.pow_le_pow_right (by decide) hbits), hleast.trans hp⟩

theorem inFormat_intCast {bits : Nat} {least n : Int} (hleast : least ≤ 0)
    (h : n.natAbs ≤ 2 ^ bits) (hbits : 0 < bits) : InFormat bits least n := by
  have habs : |(n : ℚ)| = n.natAbs := by rw [Nat.cast_natAbs, Int.cast_abs]
  rcases h.lt_or_eq with hlt | heq
  · exact ⟨n.natAbs, 0, by rw [habs, zpow_zero, mul_one], hlt, hleast⟩
  · refine ⟨1, bits, ?_, Nat.one_lt_two_pow hbits.ne', by omega⟩
    rw [habs, heq]
    push_cast
    rw [one_mul, zpow_natCast]

end Number

open Number

namespace Double

/-- The rational number of a magnitude; infinity counts as the power of two that comes next. -/
def magnitudeValue (n : Nat) : ℚ := (parts n).1 * 2 ^ (parts n).2

theorem exists_place (n : Nat) :
    ∃ t m : Nat, n = t * implicitBit + m ∧ m < 2 ^ 53 ∧ (t ≠ 0 → 2 ^ 52 ≤ m) := by
  refine ⟨n / implicitBit - 1, n - (n / implicitBit - 1) * implicitBit, ?_, ?_, ?_⟩ <;>
    unfold implicitBit <;> omega

theorem parts_of_lt {m : Nat} (h : m < 2 ^ 52) : parts m = (m, -1074) := by
  have hquotient : m / implicitBit = 0 := Nat.div_eq_of_lt h
  have hrest : m % implicitBit = m := Nat.mod_eq_of_lt h
  rw [parts, hquotient, hrest, if_pos rfl]

theorem parts_place {t m : Nat} (hm : m < 2 ^ 53) (hlow : 2 ^ 52 ≤ m) :
    parts (t * implicitBit + m) = (m, (t : Int) - 1074) := by
  have hquotient : (t * implicitBit + m) / implicitBit = t + 1 := by
    unfold implicitBit
    omega
  have hrest : (t * implicitBit + m) % implicitBit = m - implicitBit := by
    unfold implicitBit
    omega
  have hfull : implicitBit + (m - implicitBit) = m := Nat.add_sub_cancel' hlow
  have hexponent : ((t + 1 : Nat) : Int) - 1075 = t - 1074 := by omega
  rw [parts, hquotient, hrest, if_neg (Nat.succ_ne_zero t), hfull, hexponent]

/-- A significand of 53 bits, or the power of two after them, at a place of the exponent. -/
theorem magnitudeValue_place {t m : Nat} (hm : m ≤ 2 ^ 53) (hlow : t ≠ 0 → 2 ^ 52 ≤ m) :
    magnitudeValue (t * implicitBit + m) = m * 2 ^ ((t : Int) - 1074) := by
  rcases hm.lt_or_eq with hlt | rfl
  · by_cases hsmall : m < 2 ^ 52
    · have ht : t = 0 := by
        by_contra hne
        exact absurd (hlow hne) (Nat.not_le.2 hsmall)
      rw [ht, Nat.zero_mul, Nat.zero_add, magnitudeValue, parts_of_lt hsmall]
      rfl
    · rw [magnitudeValue, parts_place hlt (Nat.not_lt.1 hsmall)]
  · have hcarry : t * implicitBit + 2 ^ 53 = (t + 1) * implicitBit + 2 ^ 52 := by
      unfold implicitBit
      omega
    have hexponent : ((t + 1 : Nat) : Int) - 1074 = 1 + (t - 1074) := by omega
    rw [hcarry, magnitudeValue, parts_place (by decide) le_rfl, hexponent,
      zpow_add₀ two_ne_zero, ← mul_assoc, zpow_one]
    congr 1
    norm_num

theorem magnitudeValue_strictMono : StrictMono magnitudeValue := by
  refine strictMono_nat_of_lt_succ fun n => ?_
  obtain ⟨t, m, rfl, hm, hlow⟩ := exists_place n
  have hnext : t * implicitBit + m + 1 = t * implicitBit + (m + 1) := by omega
  rw [hnext, magnitudeValue_place hm.le hlow,
    magnitudeValue_place (by omega) fun ht => (hlow ht).trans (Nat.le_succ m)]
  push_cast
  gcongr
  linarith

theorem magnitudeValue_inFormat (n : Nat) : ∃ (m : Nat) (q : Int),
    magnitudeValue n = m * 2 ^ q ∧ m < 2 ^ 53 ∧ -1074 ≤ q := by
  obtain ⟨t, m, rfl, hm, hlow⟩ := exists_place n
  exact ⟨m, t - 1074, magnitudeValue_place hm.le hlow, hm, by omega⟩

theorem ratio_value (n : Nat) : ((ratio n).1 : ℚ) / (ratio n).2 = magnitudeValue n :=
  scaled_value two_ne_zero _ _

theorem ratio_den_ne_zero (n : Nat) : (ratio n).2 ≠ 0 :=
  (scaled_den_pos two_ne_zero _ _).ne'

@[simp] theorem magnitudeValue_zero : magnitudeValue 0 = 0 := by simp [magnitudeValue, parts]

theorem magnitudeValue_top : magnitudeValue top = 2 ^ 1024 := by
  have hplace : top = 2045 * implicitBit + 2 ^ 53 := by decide
  rw [hplace, magnitudeValue_place le_rfl (by decide)]
  rw [Nat.cast_pow, Nat.cast_ofNat, ← zpow_natCast, ← zpow_add₀ two_ne_zero]
  exact zpow_natCast 2 1024

variable {num den num' den' : Nat}

theorem exists_roundsTo (hnum : num ≠ 0) (hden : den ≠ 0) : ∃ m q,
    RoundsTo 53 (-1074) (num / den) m q ∧ magnitudeValue (nearest num den) = m * 2 ^ q := by
  have hrounds := roundBinary_roundsTo 53 (-1074) hnum hden
  refine ⟨_, _, hrounds, ?_⟩
  rw [nearest, if_neg hnum]
  generalize roundBinary 53 (-1074) num den = r at hrounds
  obtain ⟨m, q⟩ := r
  have hq := hrounds.least_le
  obtain ⟨t, ht⟩ : ∃ t, (q + 1074).toNat = t := ⟨_, rfl⟩
  simp only [ht]
  rw [magnitudeValue_place (hrounds.le_two_pow (by decide)) fun hne =>
    hrounds.two_pow_le (by omega)]
  congr 2
  omega

@[simp] theorem nearest_zero (den : Nat) : nearest 0 den = 0 := if_pos rfl

theorem nearest_mono (hden : den ≠ 0) (hden' : den' ≠ 0) (h : (num / den : ℚ) ≤ num' / den') :
    nearest num den ≤ nearest num' den' := by
  by_cases hnum : num = 0
  · rw [hnum, nearest_zero]
    exact Nat.zero_le _
  have hnum' : num' ≠ 0 := by
    rintro rfl
    rw [Nat.cast_zero, zero_div] at h
    have : (0 : ℚ) < num / den := by positivity
    exact absurd h (not_le.2 this)
  obtain ⟨m, q, hrounds, hvalue⟩ := exists_roundsTo hnum hden
  obtain ⟨m', q', hrounds', hvalue'⟩ := exists_roundsTo hnum' hden'
  rw [← magnitudeValue_strictMono.le_iff_le, hvalue, hvalue']
  exact hrounds.mono (by decide) hrounds' h

theorem nearest_congr (hden : den ≠ 0) (hden' : den' ≠ 0) (h : (num / den : ℚ) = num' / den') :
    nearest num den = nearest num' den' :=
  le_antisymm (nearest_mono hden hden' h.le) (nearest_mono hden' hden h.ge)

theorem magnitudeValue_nearest {n : Nat} {p : Int} (hden : den ≠ 0)
    (h : (num / den : ℚ) = n * 2 ^ p) (hn : n < 2 ^ 53) (hp : -1074 ≤ p) :
    magnitudeValue (nearest num den) = num / den := by
  by_cases hnum : num = 0
  · simp [hnum]
  obtain ⟨m, q, hrounds, hvalue⟩ := exists_roundsTo hnum hden
  rw [hvalue, hrounds.exact h hn hp]

theorem nearest_ratio (n : Nat) : nearest (ratio n).1 (ratio n).2 = n := by
  obtain ⟨m, q, hvalue, hm, hq⟩ := magnitudeValue_inFormat n
  have hkept := magnitudeValue_nearest (ratio_den_ne_zero n) ((ratio_value n).trans hvalue) hm hq
  exact magnitudeValue_strictMono.injective (hkept.trans (ratio_value n))

theorem le_nearest {n : Nat} (hden : den ≠ 0) (h : magnitudeValue n ≤ num / den) :
    n ≤ nearest num den := by
  rw [← ratio_value] at h
  exact (nearest_ratio n).ge.trans (nearest_mono (ratio_den_ne_zero n) hden h)

theorem nearest_eq_zero (hden : den ≠ 0) (h : (num / den : ℚ) < 2 ^ (-1075 : Int)) :
    nearest num den = 0 := by
  by_cases hnum : num = 0
  · rw [hnum, nearest_zero]
  obtain ⟨m, q, hrounds, hvalue⟩ := exists_roundsTo hnum hden
  have hlog : Int.log 2 (num / den : ℚ) < -1075 :=
    (Int.lt_zpow_iff_log_lt one_lt_two hrounds.pos).1 (by exact_mod_cast h)
  have hq : q = -1074 := by
    rw [hrounds.unit]
    omega
  have hhalf : (num / den : ℚ) / 2 ^ q < 1 / 2 := by
    rw [hq, div_lt_iff₀ (by positivity)]
    calc
      (num / den : ℚ) < 2 ^ (-1075 : Int) := h
      _ = 1 / 2 * 2 ^ (-1074 : Int) := by
        rw [one_div, ← zpow_neg_one, ← zpow_add₀ two_ne_zero]
        norm_num
  have hm : (m : ℚ) < 1 := by
    have := hrounds.nearest.low
    push_cast at this
    linarith
  have hzero : m = 0 := by
    have : m < 1 := by exact_mod_cast hm
    omega
  rw [hzero, Nat.cast_zero, zero_mul, ← magnitudeValue_zero] at hvalue
  exact magnitudeValue_strictMono.injective hvalue

theorem rank_number_lt (negative : Bool) (n : Fin (top + 1)) :
    (number negative n).rank < nan.rank := by
  have := n.isLt
  simp only [rank]
  split <;> omega

theorem rank_injective : Function.Injective rank := by
  intro x y h
  cases x with
  | nan =>
    cases y with
    | nan => rfl
    | number s b => exact absurd h (rank_number_lt s b).ne'
  | number r a =>
    cases y with
    | nan => exact absurd h (rank_number_lt r a).ne
    | number s b =>
      cases r <;> cases s <;> simp only [rank, Bool.false_eq_true, if_true, if_false] at h
      · exact congrArg _ (Fin.ext (by omega))
      · omega
      · omega
      · exact congrArg _ (Fin.ext (by omega))

theorem compare_eq_eq {x y : Double} : x.compare y = .eq ↔ x = y := by
  rw [compare, Int.compare_eq_eq, rank_injective.eq_iff]

theorem compare_eq_lt {x y : Double} : x.compare y = .lt ↔ x.rank < y.rank :=
  Int.compare_eq_lt

def ofRat (x : ℚ) : Double := ofRatio (x < 0) x.num.natAbs x.den

theorem rank_ofMagnitude (negative : Bool) (n : Nat) : (ofMagnitude negative n).rank =
    if negative then -((min n top : Nat) : Int) - 1 else (min n top : Nat) := rfl

theorem natAbs_num_div_den (x : ℚ) : (x.num.natAbs / x.den : ℚ) = |x| := by
  rw [Nat.cast_natAbs, Int.cast_abs, ← Nat.abs_cast x.den, ← abs_div, Rat.num_div_den]

theorem ofRatio_natAbs (n : Int) (hden : den ≠ 0) :
    ofRatio (n < 0) n.natAbs den = ofRat (n / den) := by
  have hpos : (0 : ℚ) < den := by positivity
  have hnegative : (n < 0) ↔ (n / den : ℚ) < 0 := by
    rw [div_lt_iff₀ hpos, zero_mul, Int.cast_lt_zero]
  have hvalue : (n.natAbs / den : ℚ) = |(n / den : ℚ)| := by
    rw [Nat.cast_natAbs, Int.cast_abs, abs_div, Nat.abs_cast]
  rw [ofRat, ofRatio, ofRatio, decide_eq_decide.2 hnegative,
    nearest_congr hden (Rat.den_ne_zero _) (hvalue.trans (natAbs_num_div_den _).symm)]

theorem ofInt_eq_ofRat (n : Int) : ofInt n = ofRat n := by
  have h := ofRatio_natAbs n one_ne_zero
  rwa [Nat.cast_one, div_one] at h

@[simp] theorem ofRat_zero : ofRat 0 = zero := by simp [ofRat, ofRatio, zero]

variable {x y : ℚ}

theorem rank_ofRat_lt_zero (h : x < 0) : (ofRat x).rank < 0 := by
  rw [ofRat, ofRatio, rank_ofMagnitude, if_pos (decide_eq_true h)]
  omega

theorem rank_ofRat_nonneg (h : 0 ≤ x) : 0 ≤ (ofRat x).rank := by
  rw [ofRat, ofRatio, rank_ofMagnitude, if_neg (by simpa using h)]
  omega

theorem rank_ofRat_mono (h : x ≤ y) : (ofRat x).rank ≤ (ofRat y).rank := by
  have hmono {a b : ℚ} (hab : |a| ≤ |b|) :
      nearest a.num.natAbs a.den ≤ nearest b.num.natAbs b.den := by
    rw [← natAbs_num_div_den, ← natAbs_num_div_den] at hab
    exact nearest_mono (Rat.den_ne_zero a) (Rat.den_ne_zero b) hab
  simp only [ofRat, ofRatio, rank_ofMagnitude, decide_eq_true_eq]
  rcases lt_or_ge y 0 with hy | hy
  · have hx := h.trans_lt hy
    have := hmono (a := y) (b := x) (by rw [abs_of_neg hx, abs_of_neg hy]; linarith)
    rw [if_pos hx, if_pos hy]
    omega
  rw [if_neg (not_lt.2 hy)]
  rcases lt_or_ge x 0 with hx | hx
  · rw [if_pos hx]
    omega
  · have := hmono (a := x) (b := y) (by rwa [abs_of_nonneg hx, abs_of_nonneg hy])
    rw [if_neg (not_lt.2 hx)]
    omega

theorem nearest_lt_top (h : InFormat 53 (-1074) x) (hx : |x| < 2 ^ 1024) :
    magnitudeValue (nearest x.num.natAbs x.den) = |x| ∧ nearest x.num.natAbs x.den < top := by
  obtain ⟨n, p, hvalue, hn, hp⟩ := h
  have hkept := magnitudeValue_nearest (Rat.den_ne_zero x)
    ((natAbs_num_div_den x).trans hvalue) hn hp
  rw [natAbs_num_div_den] at hkept
  refine ⟨hkept, ?_⟩
  rwa [← magnitudeValue_strictMono.lt_iff_lt, hkept, magnitudeValue_top]

theorem rank_ofRat_lt (h : x < y) (hx : InFormat 53 (-1074) x) (hy : InFormat 53 (-1074) y)
    (hxtop : |x| < 2 ^ 1024) (hytop : |y| < 2 ^ 1024) :
    (ofRat x).rank < (ofRat y).rank := by
  refine lt_of_le_of_ne (rank_ofRat_mono h.le) fun heq => h.ne ?_
  obtain ⟨hvx, hltx⟩ := nearest_lt_top hx hxtop
  obtain ⟨hvy, hlty⟩ := nearest_lt_top hy hytop
  simp only [ofRat, ofRatio, rank_ofMagnitude, decide_eq_true_eq, Nat.min_eq_left hltx.le,
    Nat.min_eq_left hlty.le] at heq
  have hsame (hm : nearest x.num.natAbs x.den = nearest y.num.natAbs y.den) : |x| = |y| := by
    rw [← hvx, ← hvy, hm]
  split at heq <;> split at heq
  next hxneg hyneg =>
    have := hsame (by omega)
    rwa [abs_of_neg hxneg, abs_of_neg hyneg, neg_inj] at this
  next => omega
  next => omega
  next hxneg hyneg =>
    have := hsame (by omega)
    rwa [abs_of_nonneg (not_lt.1 hxneg), abs_of_nonneg (not_lt.1 hyneg)] at this

theorem two_pow_le_ten_pow {a b : Nat} (h : 28 * a ≤ 93 * b) : 2 ^ a ≤ 10 ^ b :=
  pow_le_pow_of_pow_le (p := 93) (by decide) (by decide) (by decide) h

theorem ten_pow_le_two_pow {a b : Nat} (h : 10 * a ≤ 3 * b) : 10 ^ a ≤ 2 ^ b :=
  pow_le_pow_of_pow_le (p := 3) (by decide) (by decide) (by decide) h

theorem ofMagnitude_of_top_le {n : Nat} (negative : Bool) (h : top ≤ n) :
    ofMagnitude negative n = ofMagnitude negative top := by
  simp only [ofMagnitude, Nat.min_eq_right h, Nat.min_self]

theorem scientific_lt {digits : Nat} {exponent : Int}
    (h : ((digits.log2 / 3 : Nat) : Int) + exponent < -330) :
    (digits : ℚ) * 10 ^ exponent < 2 ^ (-1075 : Int) := by
  have hpow : digits < 10 ^ (digits.log2 / 3 + 1) :=
    Nat.lt_log2_self.trans_le (two_pow_le_ten_pow (by omega))
  have hleast : (2 : ℚ) ^ 1075 ≤ 10 ^ 330 := by
    exact_mod_cast two_pow_le_ten_pow (a := 1075) (b := 330) (by decide)
  calc
    (digits : ℚ) * 10 ^ exponent < 10 ^ (digits.log2 / 3 + 1) * 10 ^ exponent := by
      gcongr
      exact_mod_cast hpow
    _ = 10 ^ (((digits.log2 / 3 + 1 : Nat) : Int) + exponent) := by
      rw [zpow_add₀ (by norm_num), zpow_natCast]
    _ ≤ 10 ^ (-330 : Int) := zpow_le_zpow_right₀ (by norm_num) (by omega)
    _ ≤ 2 ^ (-1075 : Int) := by
      rw [zpow_neg, zpow_neg]
      exact inv_anti₀ (by positivity) hleast

theorem two_pow_le_scientific {digits : Nat} {exponent : Int} (hdigits : digits ≠ 0)
    (h : 310 < ((3 * digits.log2 / 10 : Nat) : Int) + exponent) :
    (2 : ℚ) ^ 1024 ≤ digits * 10 ^ exponent := by
  have hpow : 10 ^ (3 * digits.log2 / 10) ≤ digits :=
    (ten_pow_le_two_pow (by omega)).trans (Nat.log2_self_le hdigits)
  have hgreatest : (2 : ℚ) ^ 1024 ≤ 10 ^ 311 := by
    exact_mod_cast two_pow_le_ten_pow (a := 1024) (b := 311) (by decide)
  calc
    (2 : ℚ) ^ 1024 ≤ 10 ^ (311 : Int) := hgreatest
    _ ≤ 10 ^ (((3 * digits.log2 / 10 : Nat) : Int) + exponent) :=
      zpow_le_zpow_right₀ (by norm_num) (by omega)
    _ = 10 ^ (3 * digits.log2 / 10) * 10 ^ exponent := by
      rw [zpow_add₀ (by norm_num), zpow_natCast]
    _ ≤ digits * 10 ^ exponent := by
      gcongr
      exact_mod_cast hpow

/-- The bounds on the order of magnitude only save work. -/
theorem ofScientific_eq (negative : Bool) (digits : Nat) (exponent : Int) :
    ofScientific negative digits exponent =
      ofRatio negative (scaled 10 digits exponent).1 (scaled 10 digits exponent).2 := by
  have hden : (scaled 10 digits exponent).2 ≠ 0 := (scaled_den_pos (by decide) _ _).ne'
  have hvalue := scaled_value (show 10 ≠ 0 by decide) digits exponent
  push_cast at hvalue
  unfold ofScientific
  by_cases hdigits : digits = 0
  · simp [hdigits, scaled, ofRatio]
  simp only [hdigits, decide_false, Bool.false_or, decide_eq_true_eq]
  split
  next hlow =>
    rw [ofRatio, nearest_eq_zero hden (hvalue ▸ scientific_lt hlow)]
  split
  next hhigh =>
    have hinfinite : top ≤ nearest (scaled 10 digits exponent).1 (scaled 10 digits exponent).2 := by
      refine le_nearest hden ?_
      rw [magnitudeValue_top, hvalue]
      exact two_pow_le_scientific hdigits hhigh
    rw [ofRatio, ofMagnitude_of_top_le negative hinfinite]
  next => rfl

end Double

theorem Decimal.toDouble_eq_ofRat (d : Decimal) : d.toDouble = Double.ofRat d.value := by
  have hscaled : (scaled 10 d.unscaled.natAbs (-d.scale)) = (d.unscaled.natAbs, 10 ^ d.scale) := by
    simp [scaled, Nat.pow_eq]
  have hpow : 10 ^ d.scale ≠ 0 := (Nat.pow_pos (by decide)).ne'
  rw [toDouble, Double.ofScientific_eq, hscaled, Double.ofRatio_natAbs _ hpow, value]
  push_cast
  rfl

end Datum
