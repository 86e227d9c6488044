import Datum.Proofs.Convert.NumericIntervals

/-!
# The order of intervals as numbers

As a decimal an interval differs from its length by less than half a unit of the last field, and
lengths of one kind differ by a whole unit at least, so that the decimals are in the strict order of
the lengths. As an integer it is its length in leading units, rounded, which keeps the order but not
strictly.
-/

set_option autoImplicit false

namespace Datum

open Number (nearest nearest_neg nearest_mono nearest_of_nonneg)

namespace IntervalFields

variable {q : Qualifier} {f g : IntervalFields}

/-- Different lengths of a kind are at least a unit of the last field apart. -/
theorem toAbsolute_add_finestUnit_le (hf : f.violation? q = none) (hg : g.violation? q = none)
    (h : f.toAbsolute q < g.toAbsolute q) : f.toAbsolute q + q.finestUnit ≤ g.toAbsolute q := by
  obtain ⟨m, hm⟩ := finestUnit_dvd_toAbsolute hf
  obtain ⟨n, hn⟩ := finestUnit_dvd_toAbsolute hg
  rw [hm, hn] at h ⊢
  have hlt : m < n := Int.lt_of_mul_lt_mul_left h (Int.le_of_lt q.finestUnit_pos)
  calc
    q.finestUnit * m + q.finestUnit = q.finestUnit * (m + 1) := by rw [Int.mul_add, Int.mul_one]
    _ ≤ q.finestUnit * n := Int.mul_le_mul_of_nonneg_left hlt (Int.le_of_lt q.finestUnit_pos)

theorem value_toDecimal_lt (hf : f.violation? q = none) (hg : g.violation? q = none)
    (h : f.toAbsolute q < g.toAbsolute q) : (f.toDecimal q).value < (g.toDecimal q).value := by
  have hunit : (0 : ℚ) < q.leadingUnit := by exact_mod_cast q.leadingUnit_pos
  have hapart : (f.toAbsolute q : ℚ) + q.finestUnit ≤ g.toAbsolute q := by
    exact_mod_cast toAbsolute_add_finestUnit_le hf hg h
  obtain ⟨-, habove⟩ := abs_lt.1 (abs_value_toDecimal_sub_lt hf)
  obtain ⟨hbelow, -⟩ := abs_lt.1 (abs_value_toDecimal_sub_lt hg)
  refine lt_of_mul_lt_mul_right ?_ hunit.le
  linarith

theorem roundsUp_eq (hlow : 0 ≤ f.remainder) (hhigh : f.remainder < q.remainderLimit) :
    (q.hasRemainder && f.remainder != 0 && q.remainderLimit.tdiv 2 ≤ f.remainder) =
      decide (q.remainderLimit ≤ 2 * f.remainder) := by
  cases hremainder : q.hasRemainder with
  | false =>
    rw [Qualifier.remainderLimit_of_no_remainder hremainder] at hhigh ⊢
    simp only [Bool.false_and, Bool.false_eq, decide_eq_false_iff_not]
    omega
  | true =>
    -- every count of units is even, so that nothing is lost with its half
    have heven : q.remainderLimit.tdiv 2 * 2 = q.remainderLimit := by
      revert hremainder
      cases q <;> decide
    have hpos := q.remainderLimit_pos
    rw [Bool.true_and, Bool.eq_iff_iff]
    simp only [Bool.and_eq_true, bne_iff_ne, decide_eq_true_eq]
    omega

theorem nearest_magnitude (h : f.violation? q = none) :
    nearest (f.magnitude q / q.leadingUnit) =
      f.leading + if q.remainderLimit ≤ 2 * f.remainder then 1 else 0 := by
  obtain ⟨⟨hleading, hlow⟩, -, hhigh⟩ := violation?_eq_none.1 h
  have hlimit : (0 : ℚ) < q.remainderLimit := by exact_mod_cast q.remainderLimit_pos
  have hunit : (q.finestUnit : ℚ) ≠ 0 := by exact_mod_cast Int.ne_of_gt q.finestUnit_pos
  have hquotient : (f.magnitude q : ℚ) / q.leadingUnit =
      f.leading + f.remainder / q.remainderLimit := by
    rw [magnitude, Qualifier.leadingUnit_eq]
    push_cast
    field_simp
  have hfraction : (0 : ℚ) ≤ f.remainder / q.remainderLimit :=
    div_nonneg (by exact_mod_cast hlow) hlimit.le
  have hless : (f.remainder : ℚ) / q.remainderLimit < 1 := by
    rw [div_lt_one hlimit]
    exact_mod_cast hhigh
  have hwhole : (0 : ℚ) ≤ f.leading := by exact_mod_cast hleading
  rw [hquotient, nearest_of_nonneg (by positivity), round_eq_iff, Set.mem_Ico]
  by_cases hup : q.remainderLimit ≤ 2 * f.remainder
  · have hhalf : (1 : ℚ) / 2 ≤ f.remainder / q.remainderLimit := by
      rw [div_le_div_iff₀ (by norm_num) hlimit, one_mul, mul_comm]
      exact_mod_cast hup
    rw [if_pos hup]
    push_cast
    constructor <;> linarith
  · have hhalf : (f.remainder : ℚ) / q.remainderLimit < 1 / 2 := by
      rw [div_lt_div_iff₀ hlimit (by norm_num), one_mul, mul_comm]
      exact_mod_cast Int.lt_of_not_ge hup
    rw [if_neg hup]
    push_cast
    constructor <;> linarith

theorem toInt_eq (h : f.violation? q = none) :
    f.toInt q = f.factor * (f.leading + if q.remainderLimit ≤ 2 * f.remainder then 1 else 0) := by
  obtain ⟨⟨-, hlow⟩, -, hhigh⟩ := violation?_eq_none.1 h
  simp only [toInt, roundsUp_eq hlow hhigh, decide_eq_true_eq, factor]
  split <;> split <;> omega

theorem toInt_eq_nearest (h : f.violation? q = none) :
    f.toInt q = nearest (f.toAbsolute q / q.leadingUnit) := by
  rw [toInt_eq h, ← nearest_magnitude h, toAbsolute_eq_factor_mul h, factor]
  split
  · rw [Int.neg_one_mul, Int.neg_one_mul, Int.cast_neg, neg_div, nearest_neg]
  · rw [Int.one_mul, Int.one_mul]

theorem toInt_mono (hf : f.violation? q = none) (hg : g.violation? q = none)
    (h : f.toAbsolute q ≤ g.toAbsolute q) : f.toInt q ≤ g.toInt q := by
  have hunit : (0 : ℚ) ≤ q.leadingUnit := by exact_mod_cast Int.le_of_lt q.leadingUnit_pos
  have hle : (f.toAbsolute q : ℚ) ≤ g.toAbsolute q := by exact_mod_cast h
  rw [toInt_eq_nearest hf, toInt_eq_nearest hg]
  exact nearest_mono (div_le_div_of_nonneg_right hle hunit)

/-- Rounded up, 18 digits become a 19th, which 64 bits have room for. -/
theorem bigint_holds_toInt (h : f.violation? q = none) :
    IntegerKind.bigint.holds (f.toInt q) = true := by
  obtain ⟨⟨hleading, -⟩, hmost, -⟩ := violation?_eq_none.1 h
  have hleast : IntegerKind.bigint.least = -9223372036854775808 := rfl
  have hgreatest : IntegerKind.bigint.greatest = 9223372036854775807 := rfl
  rw [maxLeading] at hmost
  rw [toInt_eq h, factor, IntegerKind.holds, hleast, hgreatest, Bool.and_eq_true,
    decide_eq_true_eq, decide_eq_true_eq]
  split <;> split <;> omega

end IntervalFields

namespace Compare

/-- Intervals of one kind have decimals in their strict order and integers in their order, and the
integer is the length in leading units, rounded to one of 64 bits. -/
theorem interval_numbers (s : Session) (q : Qualifier) :
    (∀ f g : IntervalFields, f.IsValid q → g.IsValid q →
      typeSafe s (.interval q f) (.interval q g) = .ok .lt →
        (f.toDecimal q).value < (g.toDecimal q).value ∧ f.toInt q ≤ g.toInt q) ∧
    ∀ f : IntervalFields, f.IsValid q →
      f.toInt q = nearest (f.toAbsolute q / q.leadingUnit) ∧
        IntegerKind.bigint.holds (f.toInt q) = true := by
  refine ⟨fun f g hf hg horder => ?_, fun f hf => ?_⟩
  · rw [Convert.typeSafe_interval, Except.ok.injEq] at horder
    have hlt : f.toAbsolute q < g.toAbsolute q := compare_lt_iff_lt.1 horder
    exact ⟨IntervalFields.value_toDecimal_lt hf.inRange hg.inRange hlt,
      IntervalFields.toInt_mono hf.inRange hg.inRange (Int.le_of_lt hlt)⟩
  · exact ⟨IntervalFields.toInt_eq_nearest hf.inRange,
      IntervalFields.bigint_holds_toInt hf.inRange⟩

/-- The longest interval before and the next shorter one: the half of a unit counts as a whole. -/
theorem interval_numbers_of_longest :
    let longest : IntervalFields := ⟨true, 999999999999999999, 59⟩
    let shorter : IntervalFields := ⟨true, 999999999999999999, 58⟩
    (longest.toDecimal .hourToMinute).value < (shorter.toDecimal .hourToMinute).value ∧
      longest.toInt .hourToMinute ≤ shorter.toInt .hourToMinute ∧
      IntegerKind.bigint.holds (longest.toInt .hourToMinute) = true := by
  intro longest shorter
  have hlongest : longest.IsValid .hourToMinute := ⟨rfl, rfl⟩
  obtain ⟨horder, hinteger⟩ := interval_numbers (.system 0 0) .hourToMinute
  obtain ⟨hdecimal, hle⟩ := horder longest shorter hlongest ⟨rfl, rfl⟩ rfl
  exact ⟨hdecimal, hle, (hinteger longest hlongest).2⟩

end Compare

end Datum
