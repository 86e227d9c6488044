import Datum.Proofs.Interval.Literal
import Mathlib.Data.Int.Order.Basic

/-!
# The length of intervals

The fields of an interval are the two digits of its length, in leading units and in units of its
last field. A length is cut into fields toward zero, and fields in range are what their length is
cut into.
-/

set_option autoImplicit false

namespace Datum

namespace Qualifier

/-- The length of one unit of the last field, in months or nanoseconds. -/
def finestUnit : Qualifier → Int
  | .year => 12
  | .month | .yearToMonth => 1
  | .day => nanosPerDay
  | .hour | .dayToHour => nanosPerHour
  | .minute | .dayToMinute | .hourToMinute => nanosPerMinute
  | .second | .dayToSecond | .hourToSecond | .minuteToSecond => 1

variable {p q : Qualifier}

theorem finestUnit_pos (q : Qualifier) : 0 < q.finestUnit := by cases q <;> decide

theorem leadingUnit_pos (q : Qualifier) : 0 < q.leadingUnit := by cases q <;> decide

theorem leadingUnit_eq (q : Qualifier) : q.leadingUnit = q.remainderLimit * q.finestUnit := by
  cases q <;> decide

theorem remainderUnit_eq (q : Qualifier) : q.remainderUnit = q.finestUnit ∨
    q.remainderUnit = 0 ∧ q.remainderLimit = 1 := by
  cases q <;> decide

theorem finestUnit_dvd (hfamily : p.isYearMonth = q.isYearMonth)
    (hle : q.finestUnit ≤ p.finestUnit) : q.finestUnit ∣ p.finestUnit := by
  revert hfamily hle
  cases p <;> cases q <;> decide

section Holds

variable {m n k : Int}

def Holds (q : Qualifier) (n : Int) : Prop :=
  n.natAbs / q.leadingUnit ≤ IntervalFields.maxLeading

theorem holds_iff : q.Holds n ↔ n.natAbs < 10 ^ 18 * q.leadingUnit := by
  rw [Holds, IntervalFields.maxLeading, ← Int.ediv_lt_iff_lt_mul q.leadingUnit_pos]
  omega

theorem holds_neg : q.Holds (-n) ↔ q.Holds n := by rw [Holds, Holds, Int.natAbs_neg]

theorem Holds.between (hm : q.Holds m) (hk : q.Holds k) (hmn : m ≤ n) (hnk : n ≤ k) :
    q.Holds n := by
  rw [holds_iff] at hm hk ⊢
  omega

end Holds

end Qualifier

namespace IntervalFields

open Qualifier

variable {q : Qualifier} {f g : IntervalFields} {m n : Int}

theorem ofAbsolute_eq (q : Qualifier) (n : Int) : ofAbsolute q n =
    ⟨n < 0, n.natAbs / q.leadingUnit, n.natAbs % q.leadingUnit / q.finestUnit⟩ := by
  have hmagnitude := Int.natCast_nonneg n.natAbs
  have hrest : 0 ≤ (n.natAbs : Int) % q.leadingUnit :=
    Int.emod_nonneg _ (Int.ne_of_gt q.leadingUnit_pos)
  simp only [ofAbsolute, Int.tdiv_eq_ediv_of_nonneg hmagnitude,
    Int.tmod_eq_emod_of_nonneg hmagnitude, Int.tdiv_eq_ediv_of_nonneg hrest]
  rcases q.remainderUnit_eq with hunit | ⟨hunit, hlimit⟩
  · rw [hunit, if_neg (Int.ne_of_gt q.finestUnit_pos)]
  · have hlast : q.finestUnit = q.leadingUnit := by rw [leadingUnit_eq, hlimit, Int.one_mul]
    rw [hunit, if_pos rfl, hlast,
      Int.ediv_eq_zero_of_lt hrest (Int.emod_lt_of_pos _ q.leadingUnit_pos)]

theorem toAbsolute_eq (hlow : 0 ≤ f.remainder) (hhigh : f.remainder < q.remainderLimit) :
    f.toAbsolute q = (if f.negative then -1 else 1) *
      (f.leading * q.leadingUnit + f.remainder * q.finestUnit) := by
  have hremainder : f.remainder * q.remainderUnit = f.remainder * q.finestUnit := by
    rcases q.remainderUnit_eq with hunit | ⟨hunit, hlimit⟩
    · rw [hunit]
    · have hzero : f.remainder = 0 := by omega
      rw [hzero, Int.zero_mul, Int.zero_mul]
  rw [toAbsolute, hremainder]
  split
  · rw [Int.neg_one_mul]
  · rw [Int.one_mul]

theorem toAbsolute_unsignedZero (q : Qualifier) (f : IntervalFields) :
    f.unsignedZero.toAbsolute q = f.toAbsolute q := by
  unfold unsignedZero
  split
  next hzero =>
    simp only [isZero, Bool.and_eq_true, beq_iff_eq] at hzero
    simp [toAbsolute, hzero.1, hzero.2]
  next => rfl

theorem ofAbsolute_remainder (q : Qualifier) (n : Int) :
    0 ≤ (ofAbsolute q n).remainder ∧ (ofAbsolute q n).remainder < q.remainderLimit := by
  have hlt := Int.emod_lt_of_pos (n.natAbs : Int) q.leadingUnit_pos
  have hle := Int.emod_nonneg (n.natAbs : Int) (Int.ne_of_gt q.leadingUnit_pos)
  rw [ofAbsolute_eq]
  refine ⟨Int.ediv_nonneg hle (Int.le_of_lt q.finestUnit_pos), ?_⟩
  rw [leadingUnit_eq q] at hlt ⊢
  exact Int.ediv_lt_of_lt_mul q.finestUnit_pos hlt

theorem violation?_ofAbsolute : (ofAbsolute q n).violation? q = none ↔
    n.natAbs / q.leadingUnit ≤ maxLeading := by
  have hleading : 0 ≤ n.natAbs / q.leadingUnit :=
    Int.ediv_nonneg (Int.natCast_nonneg _) (Int.le_of_lt q.leadingUnit_pos)
  have hremainder := ofAbsolute_remainder q n
  rw [violation?_eq_none]
  rw [ofAbsolute_eq] at hremainder ⊢
  simp only at hremainder ⊢
  omega

theorem sum_of_digits (m : Int) (limit : Int) {unit : Int} (hunit : 0 < unit) :
    m / (limit * unit) * (limit * unit) + m % (limit * unit) / unit * unit = m / unit * unit := by
  have hsplit : m = m % (limit * unit) + m / (limit * unit) * limit * unit := by
    rw [Int.mul_assoc, Int.mul_comm (m / _)]
    exact (Int.emod_add_mul_ediv m _).symm
  have hquotient : m / unit = m % (limit * unit) / unit + m / (limit * unit) * limit := by
    conv_lhs => rw [hsplit]
    exact Int.add_mul_ediv_right _ _ (Int.ne_of_gt hunit)
  rw [hquotient, Int.add_mul, Int.mul_assoc, Int.add_comm]

theorem toAbsolute_ofAbsolute (q : Qualifier) (n : Int) :
    (ofAbsolute q n).toAbsolute q = n.sign * (n.natAbs / q.finestUnit * q.finestUnit) := by
  obtain ⟨hlow, hhigh⟩ := ofAbsolute_remainder q n
  rw [toAbsolute_eq hlow hhigh, ofAbsolute_eq]
  simp only [decide_eq_true_eq]
  rw [leadingUnit_eq, sum_of_digits _ _ q.finestUnit_pos]
  rcases Int.lt_trichotomy n 0 with hneg | rfl | hpos
  · rw [if_pos hneg, Int.sign_eq_neg_one_of_neg hneg]
  · simp
  · rw [if_neg (Int.lt_asymm hpos), Int.sign_eq_one_of_pos hpos]

theorem toAbsolute_ofAbsolute_of_dvd (h : q.finestUnit ∣ n) :
    (ofAbsolute q n).toAbsolute q = n := by
  rw [toAbsolute_ofAbsolute, Int.ediv_mul_cancel (Int.dvd_natAbs.2 h), Int.sign_mul_natAbs]

theorem toAbsolute_neg (h : f.violation? q = none) :
    decide (f.toAbsolute q < 0) = (f.negative && !f.isZero) := by
  obtain ⟨⟨hleading, hlow⟩, -, hhigh⟩ := violation?_eq_none.1 h
  have hwhole := Int.mul_nonneg hleading (Int.le_of_lt q.leadingUnit_pos)
  have hrest := Int.mul_nonneg hlow (Int.le_of_lt q.finestUnit_pos)
  rw [toAbsolute_eq hlow hhigh]
  cases hzero : f.isZero with
  | true =>
    simp only [isZero, Bool.and_eq_true, beq_iff_eq] at hzero
    rw [hzero.1, hzero.2]
    simp
  | false =>
    have hpos : f.leading * q.leadingUnit ≠ 0 ∨ f.remainder * q.finestUnit ≠ 0 := by
      simp only [isZero, Bool.and_eq_false_iff, beq_eq_false_iff_ne] at hzero
      exact hzero.imp (Int.mul_ne_zero · (Int.ne_of_gt q.leadingUnit_pos))
        (Int.mul_ne_zero · (Int.ne_of_gt q.finestUnit_pos))
    cases f.negative
    · simp only [Bool.false_eq_true, if_false, Bool.false_and, decide_eq_false_iff_not]
      omega
    · simp only [if_true, Bool.not_false, Bool.and_self, decide_eq_true_eq]
      omega

/-- Fields in range come back from their length, but for the sign of zero. -/
theorem ofAbsolute_toAbsolute (h : f.violation? q = none) :
    ofAbsolute q (f.toAbsolute q) = f.unsignedZero := by
  obtain ⟨⟨hleading, hlow⟩, -, hhigh⟩ := violation?_eq_none.1 h
  have hunit := q.finestUnit_pos
  have hwhole := Int.mul_nonneg hleading (Int.le_of_lt q.leadingUnit_pos)
  have hrest := Int.mul_nonneg hlow (Int.le_of_lt hunit)
  have hrestLt : f.remainder * q.finestUnit < q.leadingUnit := by
    rw [leadingUnit_eq]
    exact Int.mul_lt_mul_of_pos_right hhigh hunit
  have hmagnitude : ((f.toAbsolute q).natAbs : Int) =
      f.remainder * q.finestUnit + f.leading * q.leadingUnit := by
    rw [toAbsolute_eq hlow hhigh]
    split <;> omega
  have hunsigned : f.unsignedZero = ⟨f.negative && !f.isZero, f.leading, f.remainder⟩ := by
    unfold unsignedZero
    cases f.isZero <;> simp
  rw [ofAbsolute_eq, hmagnitude, toAbsolute_neg h, hunsigned,
    Int.add_mul_ediv_right _ _ (Int.ne_of_gt q.leadingUnit_pos),
    Int.ediv_eq_zero_of_lt hrest hrestLt, Int.add_mul_emod_self_right,
    Int.emod_eq_of_lt hrest hrestLt,
    Int.mul_ediv_cancel _ (Int.ne_of_gt hunit), Int.zero_add]

theorem IsValid.ofAbsolute_toAbsolute (h : f.IsValid q) : ofAbsolute q (f.toAbsolute q) = f :=
  (IntervalFields.ofAbsolute_toAbsolute h.inRange).trans h.unsigned

theorem toAbsolute_inj (hf : f.IsValid q) (hg : g.IsValid q)
    (h : f.toAbsolute q = g.toAbsolute q) : f = g := by
  rw [← hf.ofAbsolute_toAbsolute, h, hg.ofAbsolute_toAbsolute]

theorem finestUnit_dvd_toAbsolute (h : f.violation? q = none) :
    q.finestUnit ∣ f.toAbsolute q := by
  obtain ⟨⟨-, hlow⟩, -, hhigh⟩ := violation?_eq_none.1 h
  rw [toAbsolute_eq hlow hhigh, leadingUnit_eq, ← Int.mul_assoc, ← Int.add_mul, ← Int.mul_assoc]
  exact Int.dvd_mul_left _ _

theorem ofAbsolute_neg (q : Qualifier) (n : Int) : (ofAbsolute q (-n)).unsignedZero =
    { (ofAbsolute q n).unsignedZero with
      negative := !(ofAbsolute q n).unsignedZero.negative }.unsignedZero := by
  simp only [ofAbsolute_eq, Int.natAbs_neg]
  rcases Int.lt_trichotomy n 0 with hneg | rfl | hpos
  · have hnot : ¬ -n < 0 := by omega
    simp only [unsignedZero, isZero, decide_eq_true hneg, decide_eq_false hnot]
    split <;> simp_all
  · simp [unsignedZero, isZero]
  · have hneg : -n < 0 := by omega
    simp only [unsignedZero, isZero, decide_eq_true hneg, decide_eq_false (Int.lt_asymm hpos)]
    split <;> simp_all

theorem toAbsolute_ofAbsolute_eq_tdiv (q : Qualifier) (n : Int) :
    (ofAbsolute q n).unsignedZero.toAbsolute q = n.tdiv q.finestUnit * q.finestUnit := by
  rw [toAbsolute_unsignedZero, toAbsolute_ofAbsolute, ← Int.mul_assoc]
  congr 1
  have hcut : n.sign * ((n.natAbs : Int).tdiv q.finestUnit) = n.tdiv q.finestUnit := by
    rcases Int.lt_trichotomy n 0 with hneg | rfl | hpos
    · have hmagnitude : (n.natAbs : Int) = -n := by omega
      rw [hmagnitude, Int.neg_tdiv, Int.sign_eq_neg_one_of_neg hneg, Int.neg_one_mul, Int.neg_neg]
    · simp
    · have hmagnitude : (n.natAbs : Int) = n := by omega
      rw [hmagnitude, Int.sign_eq_one_of_pos hpos, Int.one_mul]
  rw [← hcut, Int.tdiv_eq_ediv_of_nonneg (Int.natCast_nonneg _)]

theorem toAbsolute_ofAbsolute_mono (q : Qualifier) (h : m ≤ n) :
    (ofAbsolute q m).unsignedZero.toAbsolute q ≤ (ofAbsolute q n).unsignedZero.toAbsolute q := by
  rw [toAbsolute_ofAbsolute_eq_tdiv, toAbsolute_ofAbsolute_eq_tdiv]
  exact Int.mul_le_mul_of_nonneg_right (Int.tdiv_le_tdiv q.finestUnit_pos h)
    (Int.le_of_lt q.finestUnit_pos)

end IntervalFields

end Datum
