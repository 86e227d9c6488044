import Datum.Proofs.Compare.ColumnOrder
import Datum.Proofs.Convert.Integers
import Datum.Proofs.Convert.Intervals
import Datum.Proofs.Interval.Number

/-!
# Conversion between decimals and intervals

A decimal counts leading units and is rounded to a length, which is an odd and monotone function of
its value. The conversion succeeds for lengths within 18 digits of leading units. An interval that
is measured to months or nanoseconds comes back from its decimal; one that ends in hours or minutes
may lose a unit of its last field, since the length is rounded to nanoseconds and then cut.
-/

set_option autoImplicit false

namespace Datum

open IntervalFields (maxLeading)
open Number (nearest nearest_neg nearest_mono le_nearest nearest_le)

namespace Qualifier

/-- The length of a number of leading units, rounded to months or nanoseconds if the qualifier has
trailing fields and to leading units if not. -/
def lengthOf (q : Qualifier) (x : ℚ) : Int :=
  if q.hasRemainder then nearest (x * q.leadingUnit) else nearest x * q.leadingUnit

variable {q : Qualifier}

theorem lengthOf_neg (q : Qualifier) (x : ℚ) : q.lengthOf (-x) = -q.lengthOf x := by
  unfold lengthOf
  split
  · rw [neg_mul, nearest_neg]
  · rw [nearest_neg, Int.neg_mul]

theorem lengthOf_mono (q : Qualifier) {x y : ℚ} (h : x ≤ y) : q.lengthOf x ≤ q.lengthOf y := by
  have hunit : (0 : ℚ) ≤ q.leadingUnit := by exact_mod_cast Int.le_of_lt q.leadingUnit_pos
  unfold lengthOf
  split
  · exact nearest_mono (mul_le_mul_of_nonneg_right h hunit)
  · exact Int.mul_le_mul_of_nonneg_right (nearest_mono h) (Int.le_of_lt q.leadingUnit_pos)

def coarse : List Qualifier := [.dayToHour, .dayToMinute, .hourToMinute]

theorem finestUnit_of_not_coarse (hq : q ∉ coarse) (hremainder : q.hasRemainder = true) :
    q.finestUnit = 1 := by
  revert hq hremainder
  cases q <;> decide

theorem lengthOf_toDecimal {f : IntervalFields} (hq : q ∉ coarse) (hf : f.violation? q = none) :
    q.lengthOf (f.toDecimal q).value = f.toAbsolute q := by
  unfold lengthOf
  split
  next hremainder =>
    have herror := IntervalFields.abs_value_toDecimal_sub_lt hf
    rw [finestUnit_of_not_coarse hq hremainder, Int.cast_one] at herror
    exact Number.nearest_eq_of_abs_lt herror
  next hnone =>
    obtain ⟨⟨-, hlow⟩, -, hhigh⟩ := IntervalFields.violation?_eq_none.1 hf
    rw [remainderLimit_of_no_remainder (eq_false_of_ne_true hnone)] at hhigh
    have hzero : f.remainder = 0 := by omega
    have hwhole : (f.toDecimal q).value = (f.factor * f.leading : Int) := by
      rw [IntervalFields.value_toDecimal hf, IntervalFields.fraction_of_remainder hzero]
      simp
    rw [hwhole, Number.nearest_intCast, IntervalFields.toAbsolute, hzero, IntervalFields.factor]
    split <;> simp

theorem lengthOf_factor (q : Qualifier) (f : IntervalFields) (x : ℚ) :
    q.lengthOf (f.factor * x) = f.factor * q.lengthOf x := by
  unfold IntervalFields.factor
  split
  · rw [Int.cast_neg, Int.cast_one, neg_one_mul, lengthOf_neg, Int.neg_one_mul]
  · rw [Int.cast_one, one_mul, Int.one_mul]

theorem ten_pow_le_finestUnit (hq : q ∈ coarse) : 10 ^ q.places ≤ q.finestUnit := by
  revert hq
  cases q <;> decide

/-- The decimal of an interval stands for its length and less than a unit of the last field more, or
for less than its length and at most a unit less. -/
theorem lengthOf_toDecimal_between {f : IntervalFields} (hq : q ∈ coarse)
    (hf : f.violation? q = none) :
    ∃ m, q.lengthOf (f.toDecimal q).value = f.factor * m ∧
      (¬ f.StopsShort q → f.magnitude q ≤ m ∧ m < f.magnitude q + q.finestUnit) ∧
      (f.StopsShort q → f.magnitude q - q.finestUnit ≤ m ∧ m < f.magnitude q) := by
  obtain ⟨⟨-, hlow⟩, -, -⟩ := IntervalFields.violation?_eq_none.1 hf
  have hremainder : q.hasRemainder = true := by
    revert hq
    cases q <;> decide
  have htwo : (2 : Int) ≤ q.finestUnit := by
    revert hq
    cases q <;> decide
  have htwo : (2 : ℚ) ≤ q.finestUnit := by exact_mod_cast htwo
  obtain ⟨hmore, hless⟩ := abs_lt.1 (IntervalFields.abs_error_lt (q := q) hlow)
  refine ⟨nearest (f.magnitude q + f.error q), ?_, fun hlong => ?_, fun hshort => ?_⟩
  · rw [IntervalFields.value_toDecimal hf, lengthOf_factor, lengthOf, if_pos hremainder,
      IntervalFields.leading_add_fraction_mul]
  · have hnonneg := IntervalFields.error_nonneg hlow hlong
    refine ⟨le_nearest (by linarith), Int.lt_of_le_sub_one (nearest_le ?_)⟩
    push_cast
    linarith
  · have hshorter := IntervalFields.error_le_neg_one hlow hshort (ten_pow_le_finestUnit hq)
    refine ⟨le_nearest ?_, Int.lt_of_le_sub_one (nearest_le ?_)⟩ <;> push_cast <;> linarith

end Qualifier

namespace IntervalFields

variable {q : Qualifier} {f : IntervalFields}

theorem ofAbsolute_of_between (h : f.violation? q = none) {m : Int} (hfrom : f.magnitude q ≤ m)
    (hto : m < f.magnitude q + q.finestUnit) :
    q.Holds (f.factor * m) ∧ (ofAbsolute q (f.factor * m)).unsignedZero = f.unsignedZero := by
  obtain ⟨⟨hleading, hlow⟩, hmost, hhigh⟩ := violation?_eq_none.1 h
  unfold magnitude at hfrom hto
  have hunit := q.finestUnit_pos
  have hwhole := Int.mul_nonneg hleading (Int.le_of_lt q.leadingUnit_pos)
  have hrest := Int.mul_nonneg hlow (Int.le_of_lt hunit)
  have hfull : f.remainder * q.finestUnit + q.finestUnit ≤ q.leadingUnit := by
    rw [Qualifier.leadingUnit_eq, ← add_one_mul]
    exact Int.mul_le_mul_of_nonneg_right hhigh (Int.le_of_lt hunit)
  have hmagnitude : ((f.factor * m).natAbs : Int) = m := by
    unfold factor
    split <;> omega
  have hholds : q.Holds (f.factor * m) := by
    have hlt : m < (f.leading + 1) * q.leadingUnit := by
      rw [add_one_mul]
      omega
    have hquotient := Int.ediv_lt_of_lt_mul q.leadingUnit_pos hlt
    rw [Qualifier.Holds, hmagnitude]
    omega
  have hcut : m / q.finestUnit = f.leading * q.remainderLimit + f.remainder := by
    rw [Int.ediv_eq_iff_of_pos hunit, add_mul, mul_assoc, ← Qualifier.leadingUnit_eq]
    omega
  have hsigned : (f.factor * m).tdiv q.finestUnit = f.factor * (m / q.finestUnit) := by
    unfold factor
    split
    · rw [Int.neg_one_mul, Int.neg_one_mul, Int.neg_tdiv,
        Int.tdiv_eq_ediv_of_nonneg (by omega)]
    · rw [Int.one_mul, Int.one_mul, Int.tdiv_eq_ediv_of_nonneg (by omega)]
  -- both have valid fields, so that it is enough to compare their lengths
  refine ⟨hholds, toAbsolute_inj (isValid_unsignedZero (violation?_ofAbsolute.2 hholds))
    (isValid_unsignedZero h) ?_⟩
  rw [toAbsolute_ofAbsolute_eq_tdiv, toAbsolute_unsignedZero, toAbsolute_eq_factor_mul h, hsigned,
    hcut, mul_assoc, add_mul, mul_assoc, ← Qualifier.leadingUnit_eq, magnitude]

def shortened (f : IntervalFields) : IntervalFields := { f with remainder := f.remainder - 1 }

theorem StopsShort.remainder_pos (hshort : f.StopsShort q) (h : f.violation? q = none) :
    0 < f.remainder := by
  obtain ⟨⟨-, hlow⟩, -, -⟩ := violation?_eq_none.1 h
  refine lt_of_le_of_ne hlow fun hzero => ?_
  rw [StopsShort, ← hzero, Int.zero_mul, Int.zero_emod] at hshort
  exact Int.lt_irrefl _ hshort.1

theorem violation?_shortened (h : f.violation? q = none) (hpos : 0 < f.remainder) :
    f.shortened.violation? q = none := by
  obtain ⟨⟨hleading, hlow⟩, hmost, hhigh⟩ := violation?_eq_none.1 h
  exact violation?_eq_none.2 ⟨⟨hleading, Int.le_sub_one_of_lt hpos⟩, hmost,
    (Int.sub_one_lt_of_le (Int.le_refl _)).trans hhigh⟩

theorem magnitude_shortened (q : Qualifier) (f : IntervalFields) :
    f.shortened.magnitude q = f.magnitude q - q.finestUnit := by
  rw [magnitude, magnitude, shortened, sub_one_mul]
  exact (Int.add_sub_assoc _ _ _).symm

def throughDecimal (q : Qualifier) (f : IntervalFields) : IntervalFields :=
  if f.StopsShort q then f.shortened.unsignedZero else f

theorem ofAbsolute_lengthOf_toDecimal (hq : q ∈ Qualifier.coarse) (h : f.IsValid q) :
    q.Holds (q.lengthOf (f.toDecimal q).value) ∧
      (ofAbsolute q (q.lengthOf (f.toDecimal q).value)).unsignedZero = f.throughDecimal q := by
  obtain ⟨m, hlength, hlong, hshort⟩ := Qualifier.lengthOf_toDecimal_between hq h.inRange
  rw [hlength, throughDecimal]
  split
  next hstops =>
    obtain ⟨hfrom, hto⟩ := hshort hstops
    rw [← magnitude_shortened] at hfrom
    refine ofAbsolute_of_between (f := f.shortened)
      (violation?_shortened h.inRange (hstops.remainder_pos h.inRange)) hfrom ?_
    rw [magnitude_shortened]
    omega
  next hstops =>
    obtain ⟨hfrom, hto⟩ := hlong hstops
    obtain ⟨hholds, hfields⟩ := ofAbsolute_of_between h.inRange hfrom hto
    exact ⟨hholds, hfields.trans h.unsigned⟩

theorem toAbsolute_throughDecimal (h : f.violation? q = none) :
    (f.throughDecimal q).toAbsolute q =
      f.toAbsolute q - if f.StopsShort q then f.factor * q.finestUnit else 0 := by
  unfold throughDecimal
  split
  next hstops =>
    have hshortened := violation?_shortened h (hstops.remainder_pos h)
    rw [toAbsolute_unsignedZero, toAbsolute_eq_factor_mul hshortened, magnitude_shortened,
      toAbsolute_eq_factor_mul h, Int.mul_sub]
    rfl
  next => rw [Int.sub_zero]

end IntervalFields

namespace Convert

variable {q : Qualifier} {d : Decimal}

theorem fractionUnit?_eq (q : Qualifier) :
    fractionUnit? q = if q.hasRemainder then some q.leadingUnit else none := by
  cases q <;> rfl

theorem ofLeading_eq (q : Qualifier) (n : Int) :
    ofLeading q n = Value.ofAbsolute q (n * q.leadingUnit) := by
  have hunit := q.leadingUnit_pos
  have hneg : n * q.leadingUnit < 0 ↔ n < 0 :=
    ⟨fun h => Int.not_le.1 fun hn =>
        Int.not_le.2 h (Int.mul_nonneg hn (Int.le_of_lt hunit)),
      fun h => Int.mul_neg_of_neg_of_pos h hunit⟩
  have hmagnitude : ((n * q.leadingUnit).natAbs : Int) = n.natAbs * q.leadingUnit := by
    rw [Int.natAbs_mul, Int.natCast_mul, Int.natAbs_of_nonneg (Int.le_of_lt hunit)]
  rw [ofLeading, Value.ofAbsolute, IntervalFields.ofAbsolute_eq, decide_eq_decide.2 hneg,
    hmagnitude, Int.mul_ediv_cancel _ (Int.ne_of_gt hunit), Int.mul_emod_left, Int.zero_ediv]

theorem in_bigint_of_nearest {x : ℚ} (h : (nearest x).natAbs ≤ maxLeading) :
    IntegerKind.bigint.least ≤ x ∧ x ≤ IntegerKind.bigint.greatest := by
  have hleast : IntegerKind.bigint.least = -9223372036854775808 := rfl
  have hgreatest : IntegerKind.bigint.greatest = 9223372036854775807 := rfl
  rw [maxLeading] at h
  constructor
  · by_contra hlt
    have hround := nearest_le (not_le.1 hlt).le
    omega
  · by_contra hlt
    have hround := le_nearest (not_le.1 hlt).le
    omega

theorem convert_numeric_of_remainder (hq : q.hasRemainder = true) (d : Decimal)
    (c : ConvertContext) :
    convert (.numeric d) (.interval q) c = Value.ofAbsolute q (q.lengthOf d.value) := by
  have hunit := fractionUnit?_eq q
  rw [hq, if_pos rfl] at hunit
  rw [convert_eq_byRule rfl (by simp)]
  simp only [byRule, toInterval, numberToInterval, hunit, exactDecimal?, ofFraction,
    Decimal.unscaled_setScale_zero, Decimal.value_mul, Decimal.value_ofInt, Qualifier.lengthOf, hq,
    if_true]

theorem convert_numeric_of_no_remainder (hq : q.hasRemainder = false) (d : Decimal)
    (c : ConvertContext) : convert (.numeric d) (.interval q) c =
      (roundDecimal d c.column >>= fun n => Value.ofAbsolute q (n * q.leadingUnit)) := by
  have hunit := fractionUnit?_eq q
  rw [hq, if_neg Bool.false_ne_true] at hunit
  rw [convert_eq_byRule rfl (by simp)]
  simp only [byRule, toInterval, numberToInterval, hunit, ofLeading_eq]

theorem convert_numeric_of_holds (h : q.Holds (q.lengthOf d.value)) (c : ConvertContext) :
    convert (.numeric d) (.interval q) c =
      .ok (.interval q (IntervalFields.ofAbsolute q (q.lengthOf d.value)).unsignedZero) := by
  cases hq : q.hasRemainder with
  | true => rw [convert_numeric_of_remainder hq, Value.ofAbsolute_of_le h]
  | false =>
    have hlength : q.lengthOf d.value = nearest d.value * q.leadingUnit :=
      if_neg (ne_true_of_eq_false hq)
    have hleading : (nearest d.value).natAbs ≤ maxLeading := by
      rwa [Qualifier.Holds, hlength, Int.natAbs_mul, Int.natCast_mul,
        Int.natAbs_of_nonneg (Int.le_of_lt q.leadingUnit_pos),
        Int.mul_ediv_cancel _ (Int.ne_of_gt q.leadingUnit_pos)] at h
    rw [convert_numeric_of_no_remainder hq, roundDecimal_eq,
      if_pos (in_bigint_of_nearest hleading), ok_bind, ← hlength, Value.ofAbsolute_of_le h]

theorem convert_numeric_of_not_holds (h : ¬ q.Holds (q.lengthOf d.value)) (c : ConvertContext) :
    ∃ text column, convert (.numeric d) (.interval q) c = fail (.numericOverflow text column) := by
  have hlong := Int.not_le.1 h
  cases hq : q.hasRemainder with
  | true => exact ⟨_, _, by rw [convert_numeric_of_remainder hq, Value.ofAbsolute_of_lt hlong]⟩
  | false =>
    have hlength : q.lengthOf d.value = nearest d.value * q.leadingUnit :=
      if_neg (ne_true_of_eq_false hq)
    rw [convert_numeric_of_no_remainder hq, roundDecimal_eq]
    split
    · exact ⟨_, _, by rw [ok_bind, ← hlength, Value.ofAbsolute_of_lt hlong]⟩
    · exact ⟨_, _, rfl⟩

theorem convert_numeric_cases (q : Qualifier) (d : Decimal) (c : ConvertContext) :
    q.Holds (q.lengthOf d.value) ∧ convert (.numeric d) (.interval q) c =
      .ok (.interval q (IntervalFields.ofAbsolute q (q.lengthOf d.value)).unsignedZero) ∨
    ¬ q.Holds (q.lengthOf d.value) ∧
      ∃ text column, convert (.numeric d) (.interval q) c = fail (.numericOverflow text column) :=
  (em _).imp (fun h => ⟨h, convert_numeric_of_holds h c⟩)
    fun h => ⟨h, convert_numeric_of_not_holds h c⟩

theorem convert_numeric_eq_ok {q : Qualifier} {d : Decimal} {c : ConvertContext} {v : Value}
    (h : convert (.numeric d) (.interval q) c = .ok v) : q.Holds (q.lengthOf d.value) ∧
      v = .interval q (IntervalFields.ofAbsolute q (q.lengthOf d.value)).unsignedZero := by
  rcases convert_numeric_cases q d c with ⟨hholds, hok⟩ | ⟨-, text, column, hfail⟩
  · rw [hok, Except.ok.injEq] at h
    exact ⟨hholds, h.symm⟩
  · rw [hfail] at h
    cases h

theorem typeSafe_interval (s : Session) (q : Qualifier) (f g : IntervalFields) :
    Compare.typeSafe s (.interval q f) (.interval q g) =
      .ok (Ord.compare (f.toAbsolute q) (g.toAbsolute q)) := by
  rw [Compare.typeSafe, Compare.sameKind, if_pos rfl]

/-- The conversion of decimals to intervals is odd and monotone, where it does not overflow, and it
overflows for all decimals beyond some. -/
theorem numeric_to_interval (q : Qualifier) (c : ConvertContext) (s : Session) :
    let cast := fun d : Decimal => convert (.numeric d) (.interval q) c
    (∀ d, (∃ f : IntervalFields, f.IsValid q ∧ cast d = .ok (.interval q f) ∧
        cast d.neg = .ok (.interval q { f with negative := !f.negative }.unsignedZero)) ∨
      ∃ text column text' column', cast d = fail (.numericOverflow text column) ∧
        cast d.neg = fail (.numericOverflow text' column')) ∧
    (∀ d e v w, d.value ≤ e.value → cast d = .ok v → cast e = .ok w →
      AtMost (Compare.typeSafe s) v w) ∧
    ∀ d x e v w, d.value ≤ x.value → x.value ≤ e.value → cast d = .ok v → cast e = .ok w →
      ∃ u, cast x = .ok u := by
  intro cast
  refine ⟨fun d => ?odd, fun d e v w hle hd he => ?monotone,
    fun d x e v w hdx hxe hd he => ?between⟩
  case odd =>
    have hlength : q.lengthOf d.neg.value = -q.lengthOf d.value := by
      rw [Decimal.value_neg, Qualifier.lengthOf_neg]
    have hturned := convert_numeric_cases q d.neg c
    rw [hlength, Qualifier.holds_neg, IntervalFields.ofAbsolute_neg] at hturned
    rcases convert_numeric_cases q d c with ⟨hholds, hok⟩ | ⟨hlong, text, column, hfail⟩
    · obtain ⟨-, hneg⟩ := hturned.resolve_right fun h => h.1 hholds
      have hvalid := IntervalFields.isValid_unsignedZero
        (IntervalFields.violation?_ofAbsolute.2 hholds)
      exact .inl ⟨_, hvalid, hok, hneg⟩
    · obtain ⟨-, text', column', hneg⟩ := hturned.resolve_left fun h => hlong h.1
      exact .inr ⟨text, column, text', column', hfail, hneg⟩
  case monotone =>
    obtain ⟨-, rfl⟩ := convert_numeric_eq_ok hd
    obtain ⟨-, rfl⟩ := convert_numeric_eq_ok he
    have hmono := IntervalFields.toAbsolute_ofAbsolute_mono q (q.lengthOf_mono hle)
    exact ⟨_, typeSafe_interval s q _ _, Ordering.isLE_iff_ne_gt.2 (compare_le_iff_le.2 hmono)⟩
  case between =>
    obtain ⟨hm, -⟩ := convert_numeric_eq_ok hd
    obtain ⟨hk, -⟩ := convert_numeric_eq_ok he
    have hholds := hm.between hk (q.lengthOf_mono hdx) (q.lengthOf_mono hxe)
    exact ⟨_, convert_numeric_of_holds hholds c⟩

theorem numeric_to_interval_of_days :
    let c := ConvertContext.ofSession (.system 0 0)
    let before := Value.interval .dayToHour ⟨true, 1, 12⟩
    let after := Value.interval .dayToHour ⟨false, 1, 12⟩
    convert (.numeric ⟨-15, 1⟩) (.interval .dayToHour) c = .ok before ∧
      convert (.numeric ⟨15, 1⟩) (.interval .dayToHour) c = .ok after ∧
      AtMost (Compare.typeSafe (.system 0 0)) before after ∧
      ∃ u, convert (.numeric ⟨4, 2⟩) (.interval .dayToHour) c = .ok u := by
  intro c before after
  obtain ⟨-, hmono, hbetween⟩ := numeric_to_interval .dayToHour c (.system 0 0)
  have hbefore : convert (.numeric ⟨-15, 1⟩) (.interval .dayToHour) c = .ok before := by rfl
  have hafter : convert (.numeric ⟨15, 1⟩) (.interval .dayToHour) c = .ok after := by rfl
  refine ⟨hbefore, hafter, hmono _ _ _ _ ?_ hbefore hafter,
    hbetween _ _ _ _ _ ?_ ?_ hbefore hafter⟩ <;> norm_num [Decimal.value]

theorem convert_interval_numeric (q : Qualifier) (f : IntervalFields) (c : ConvertContext) :
    convert (.interval q f) .numeric c = .ok (.numeric (f.toDecimal q)) := rfl

theorem convert_toDecimal_of_coarse {f : IntervalFields} (hq : q ∈ Qualifier.coarse)
    (hf : f.IsValid q) (c : ConvertContext) :
    convert (.numeric (f.toDecimal q)) (.interval q) c =
      .ok (.interval q (f.throughDecimal q)) := by
  obtain ⟨hholds, hfields⟩ := IntervalFields.ofAbsolute_lengthOf_toDecimal hq hf
  rw [convert_numeric_of_holds hholds, hfields]

/-- An interval that is measured to months or nanoseconds, or has no trailing fields, comes back
from its decimal, although that is rounded. -/
theorem interval_through_numeric {q : Qualifier} {f : IntervalFields} (hq : q ∉ Qualifier.coarse)
    (hf : f.IsValid q) (c c' : ConvertContext) :
    ∃ d, convert (.interval q f) .numeric c = .ok (.numeric d) ∧
      |d.value * q.leadingUnit - f.toAbsolute q| < (q.finestUnit : ℚ) / 2 ∧
      convert (.numeric d) (.interval q) c' = .ok (.interval q f) := by
  have hlength := Qualifier.lengthOf_toDecimal hq hf.inRange
  have hback := hf.ofAbsolute_toAbsolute
  have hholds : q.Holds (f.toAbsolute q) := by
    rw [Qualifier.Holds, ← IntervalFields.violation?_ofAbsolute, hback]
    exact hf.inRange
  refine ⟨_, convert_interval_numeric q f c,
    IntervalFields.abs_value_toDecimal_sub_lt hf.inRange, ?_⟩
  rw [← hlength] at hholds hback
  rw [convert_numeric_of_holds hholds, hback, hf.unsigned]

/-- The longest negative interval in days and nanoseconds. -/
theorem interval_through_numeric_of_longest : ∃ d,
    let v := Value.interval .dayToSecond ⟨true, 999999999999999999, 86399999999999⟩
    let c := ConvertContext.ofSession (.system 0 0)
    convert v .numeric c = .ok (.numeric d) ∧
      convert (.numeric d) (.interval .dayToSecond) c = .ok v := by
  obtain ⟨d, hd, -, hback⟩ := interval_through_numeric (q := .dayToSecond)
    (f := ⟨true, 999999999999999999, 86399999999999⟩) (by decide) ⟨rfl, rfl⟩
    (.ofSession (.system 0 0)) (.ofSession (.system 0 0))
  exact ⟨d, hd, hback⟩

end Convert

end Datum
