import Datum.Number.Decimal
import Mathlib.Algebra.Order.Field.Rat
import Mathlib.Tactic.FieldSimp
import Mathlib.Tactic.Linarith
import Mathlib.Tactic.Ring

/-!
# The value of a decimal

The rational number that a decimal stands for. Order of decimals is order of their values, and exact
arithmetic on them is arithmetic on their values.
-/

set_option autoImplicit false

namespace Datum.Decimal

def value (d : Decimal) : ℚ := d.unscaled / 10 ^ d.scale

theorem unscaledAt_eq (d : Decimal) {n : Nat} (h : d.scale ≤ n) :
    (d.unscaledAt n : ℚ) = d.value * 10 ^ n := by
  have hp : (10 : ℚ) ^ n = 10 ^ (n - d.scale) * 10 ^ d.scale := by
    rw [← pow_add, Nat.sub_add_cancel h]
  have hz : (10 : ℚ) ^ d.scale ≠ 0 := by positivity
  simp only [unscaledAt, value, Nat.pow_eq]
  push_cast
  rw [hp]
  field_simp

theorem compare_eq (a b : Decimal) : a.compare b = Ord.compare a.value b.value := by
  have hp : (0 : ℚ) < 10 ^ max a.scale b.scale := by positivity
  have ha := a.unscaledAt_eq (le_max_left a.scale b.scale)
  have hb := b.unscaledAt_eq (le_max_right a.scale b.scale)
  unfold compare
  rcases lt_trichotomy a.value b.value with h | h | h
  · rw [compare_lt_iff_lt.2 h, Int.compare_eq_lt, ← Int.cast_lt (R := ℚ), ha, hb]
    exact mul_lt_mul_of_pos_right h hp
  · rw [compare_eq_iff_eq.2 h, Int.compare_eq_eq, ← Int.cast_inj (α := ℚ), ha, hb, h]
  · rw [compare_gt_iff_gt.2 h, Int.compare_eq_gt, ← Int.cast_lt (R := ℚ), ha, hb]
    exact mul_lt_mul_of_pos_right h hp

instance : Std.TransCmp compare := by
  have h : compare = compareOn value := funext₂ compare_eq
  rw [h]
  infer_instance

@[simp] theorem value_ofInt (n : Int) : (ofInt n).value = n := by simp [value, ofInt]

theorem value_neg (d : Decimal) : d.neg.value = -d.value := by
  simp only [value, neg, Int.cast_neg, neg_div]

theorem value_add (a b : Decimal) : (a.add b).value = a.value + b.value := by
  have hp : (10 : ℚ) ^ max a.scale b.scale ≠ 0 := by positivity
  have ha := a.unscaledAt_eq (le_max_left a.scale b.scale)
  have hb := b.unscaledAt_eq (le_max_right a.scale b.scale)
  rw [value, add, Int.cast_add, ha, hb, ← add_mul, mul_div_cancel_right₀ _ hp]

theorem value_mul (a b : Decimal) : (a.mul b).value = a.value * b.value := by
  simp only [value, mul, Int.cast_mul, pow_add, mul_div_mul_comm]

theorem value_dropZeros (count : Nat) (n : Int) :
    (dropZeros count n).value = (⟨n, count⟩ : Decimal).value := by
  induction count generalizing n with
  | zero => rfl
  | succ count ih =>
    unfold dropZeros
    split
    next hzero =>
      have htens : ((n.tdiv 10 : Int) : ℚ) * 10 = n := by
        exact_mod_cast Int.tdiv_mul_cancel (Int.dvd_of_tmod_eq_zero hzero)
      rw [ih, value, value, ← htens, pow_succ, mul_div_mul_right _ _ (by norm_num)]
    next => rfl

theorem value_stripTrailingZeros (d : Decimal) : d.stripTrailingZeros.value = d.value :=
  value_dropZeros d.scale d.unscaled

end Datum.Decimal
