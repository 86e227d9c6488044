import Datum.Interval.Fields
import Datum.Proofs.Interval.Length
import Datum.Proofs.Number.Nearest

/-!
# Intervals as decimals

The decimal of an interval is its length in leading units, but the remainder has only as many digits
as the count of its units. That is enough for an error of less than half a unit of the last field.
-/

set_option autoImplicit false

namespace Datum

namespace Qualifier

def places (q : Qualifier) : Nat := (Decimal.ofInt q.remainderLimit).precision

theorem remainderLimit_pos (q : Qualifier) : 0 < q.remainderLimit := by cases q <;> decide

theorem remainderLimit_of_no_remainder {q : Qualifier} (h : q.hasRemainder = false) :
    q.remainderLimit = 1 := by
  revert h
  cases q <;> decide

/-- One unit of the last digit is less than one of the remainder. -/
theorem remainderLimit_lt (q : Qualifier) : q.remainderLimit < 10 ^ q.places := by
  have hpos := q.remainderLimit_pos
  have hplaces : q.places ≠ 0 := fun h => Text.ofNat_ne_nil _ (List.eq_nil_of_length_eq_zero h)
  have hlt : q.remainderLimit.natAbs < 10 ^ q.places :=
    (Text.length_ofNat_le_iff _ hplaces).1 (Nat.le_refl _)
  zify at hlt
  rwa [abs_of_pos hpos] at hlt

end Qualifier

namespace IntervalFields

open Decimal

variable {q : Qualifier} {f : IntervalFields}

def fraction (q : Qualifier) (f : IntervalFields) : Int :=
  roundQuotient (f.remainder * Nat.pow 10 q.places) q.remainderLimit.natAbs .halfDown

/-- The digits stop short of the remainder: they leave out half a unit of the last one or less. -/
def StopsShort (q : Qualifier) (f : IntervalFields) : Prop :=
  let rest := f.remainder * 10 ^ q.places % q.remainderLimit
  0 < rest ∧ 2 * rest ≤ q.remainderLimit

instance (q : Qualifier) (f : IntervalFields) : Decidable (f.StopsShort q) :=
  inferInstanceAs (Decidable (_ ∧ _))

theorem fraction_of_remainder (h : f.remainder = 0) (q : Qualifier) : f.fraction q = 0 := by
  simp [fraction, h, roundQuotient_eq_add]

theorem fraction_mul (h : 0 ≤ f.remainder) : f.fraction q * q.remainderLimit =
    f.remainder * 10 ^ q.places - f.remainder * 10 ^ q.places % q.remainderLimit +
      if q.remainderLimit < 2 * (f.remainder * 10 ^ q.places % q.remainderLimit)
        then q.remainderLimit else 0 := by
  obtain ⟨r, hr⟩ := Int.eq_ofNat_of_zero_le h
  obtain ⟨limit, hlimit⟩ := Int.eq_ofNat_of_zero_le (Int.le_of_lt q.remainderLimit_pos)
  have hmul := roundQuotient_halfDown_mul (r * 10 ^ q.places) limit
  rw [fraction, hr, hlimit, Int.natAbs_natCast, Nat.pow_eq]
  push_cast at hmul ⊢
  rw [hmul]
  norm_cast

theorem abs_fraction_sub_le (h : 0 ≤ f.remainder) :
    2 * |f.fraction q * q.remainderLimit - f.remainder * 10 ^ q.places| ≤ q.remainderLimit := by
  have hpos := q.remainderLimit_pos
  have hrest := Int.emod_nonneg (f.remainder * 10 ^ q.places) (Int.ne_of_gt hpos)
  have hlt := Int.emod_lt_of_pos (f.remainder * 10 ^ q.places) hpos
  rw [fraction_mul h, Int.abs_eq_natAbs]
  split <;> omega

theorem fraction_lt_iff (h : 0 ≤ f.remainder) :
    f.fraction q * q.remainderLimit < f.remainder * 10 ^ q.places ↔ f.StopsShort q := by
  have hpos := q.remainderLimit_pos
  have hrest := Int.emod_nonneg (f.remainder * 10 ^ q.places) (Int.ne_of_gt hpos)
  have hlt := Int.emod_lt_of_pos (f.remainder * 10 ^ q.places) hpos
  rw [fraction_mul h, StopsShort]
  split <;> omega

theorem quotient_ofInt (a : Int) {b : Int} (hb : 0 < b) (places : Nat) (mode : RoundingMode) :
    (Decimal.ofInt a).quotient (.ofInt b) places mode =
      ⟨roundQuotient (a * Nat.pow 10 places) b.natAbs mode, places⟩ := by
  have hplaces : ¬ (places : Int) < 0 := by omega
  simp [quotient, Decimal.ofInt, ofScaled, Int.not_lt.2 (Int.le_of_lt hb), hplaces]

def factor (f : IntervalFields) : Int := if f.negative then -1 else 1

def magnitude (q : Qualifier) (f : IntervalFields) : Int :=
  f.leading * q.leadingUnit + f.remainder * q.finestUnit

theorem toAbsolute_eq_factor_mul (h : f.violation? q = none) :
    f.toAbsolute q = f.factor * f.magnitude q := by
  obtain ⟨⟨-, hlow⟩, -, hhigh⟩ := violation?_eq_none.1 h
  exact toAbsolute_eq hlow hhigh

theorem value_toDecimal (h : f.violation? q = none) : (f.toDecimal q).value =
    f.factor * (f.leading + f.fraction q / 10 ^ q.places) := by
  obtain ⟨⟨-, hlow⟩, -, hhigh⟩ := violation?_eq_none.1 h
  have hsign (d : Decimal) : (if f.negative then d.neg else d).value = f.factor * d.value := by
    unfold factor
    split <;> simp [value_neg]
  rw [toDecimal, hsign]
  congr 1
  split
  next => rw [value_stripTrailingZeros, value_add, value_ofInt,
      quotient_ofInt _ q.remainderLimit_pos]; rfl
  next hnone =>
    have hzero : f.remainder = 0 := by
      cases hremainder : q.hasRemainder with
      | true => simpa [hremainder] using hnone
      | false =>
        rw [Qualifier.remainderLimit_of_no_remainder hremainder] at hhigh
        omega
    rw [fraction_of_remainder hzero, value_ofInt]
    simp

def gap (q : Qualifier) (f : IntervalFields) : Int :=
  f.fraction q * q.remainderLimit - f.remainder * 10 ^ q.places

theorem two_mul_abs_gap_lt (h : 0 ≤ f.remainder) : 2 * |(f.gap q : ℚ)| < 10 ^ q.places := by
  exact_mod_cast (abs_fraction_sub_le (q := q) h).trans_lt q.remainderLimit_lt

theorem gap_neg_iff (h : 0 ≤ f.remainder) : f.gap q < 0 ↔ f.StopsShort q := by
  rw [← fraction_lt_iff h, gap]
  omega

def error (q : Qualifier) (f : IntervalFields) : ℚ := f.gap q * q.finestUnit / 10 ^ q.places

theorem abs_error_lt (h : 0 ≤ f.remainder) : |f.error q| < (q.finestUnit : ℚ) / 2 := by
  have hpow : (0 : ℚ) < 10 ^ q.places := by positivity
  have hunit : (0 : ℚ) < q.finestUnit := by exact_mod_cast q.finestUnit_pos
  have hgap := two_mul_abs_gap_lt (q := q) h
  rw [error, abs_div, abs_mul, abs_of_pos hunit, abs_of_pos hpow, div_lt_iff₀ hpow]
  nlinarith

theorem error_nonneg (h : 0 ≤ f.remainder) (hlong : ¬ f.StopsShort q) : 0 ≤ f.error q := by
  have hunit : (0 : ℚ) ≤ q.finestUnit := by exact_mod_cast Int.le_of_lt q.finestUnit_pos
  have hgap : (0 : ℚ) ≤ f.gap q := by exact_mod_cast Int.not_lt.1 (mt (gap_neg_iff h).1 hlong)
  unfold error
  positivity

theorem error_le_neg_one (h : 0 ≤ f.remainder) (hshort : f.StopsShort q)
    (hdigit : 10 ^ q.places ≤ q.finestUnit) : f.error q ≤ -1 := by
  have hpow : (0 : ℚ) < 10 ^ q.places := by positivity
  have hunit : (10 : ℚ) ^ q.places ≤ q.finestUnit := by exact_mod_cast hdigit
  have hgap : (f.gap q : ℚ) ≤ -1 := by
    exact_mod_cast Int.le_sub_one_of_lt ((gap_neg_iff h).2 hshort)
  rw [error, div_le_iff₀ hpow]
  nlinarith

theorem leading_add_fraction_mul (q : Qualifier) (f : IntervalFields) :
    (f.leading + f.fraction q / 10 ^ q.places) * (q.leadingUnit : ℚ) =
      f.magnitude q + f.error q := by
  have hpow : (10 : ℚ) ^ q.places ≠ 0 := by positivity
  rw [Qualifier.leadingUnit_eq, error, gap, magnitude, Qualifier.leadingUnit_eq]
  push_cast
  field_simp
  ring

/-- The decimal is nearer to the length than half a unit of the last field. -/
theorem abs_value_toDecimal_sub_lt (h : f.violation? q = none) :
    |(f.toDecimal q).value * q.leadingUnit - f.toAbsolute q| < (q.finestUnit : ℚ) / 2 := by
  obtain ⟨⟨-, hlow⟩, -, -⟩ := violation?_eq_none.1 h
  have hfactor : |(f.factor : ℚ)| = 1 := by
    unfold factor
    split <;> simp
  rw [value_toDecimal h, mul_assoc, leading_add_fraction_mul, toAbsolute_eq_factor_mul h,
    Int.cast_mul, ← mul_sub, add_sub_cancel_left, abs_mul, hfactor, one_mul]
  exact abs_error_lt hlow

end IntervalFields

end Datum
