import Datum.Proofs.Calendar.Exact

/-!
# Days and dates

A day is given by its era, its year of the era and its day of that year, where years begin in March
(`marchDay`, `exists_march`). Within 53 bits the two conversions of the calendar go to and from
these coordinates without rounding, and so are inverse to each other. The year that they give is the
one of the proleptic Gregorian calendar (`InYear`).
-/

set_option autoImplicit false

namespace Datum.Calendar

def eraDays (year : Nat) : Nat := 365 * year + year / 4 - year / 100

/-- The length of a year of an era; its leap day comes last. -/
def eraYearLength (year : Nat) : Nat :=
  if (year + 1) % 4 = 0 ∧ (year + 1) % 100 ≠ 0 ∨ year + 1 = 400 then 366 else 365

def commonDays (day : Nat) : Nat := day - day / 1460 + day / 36524 - day / 146096

def eraYear (day : Nat) : Nat := commonDays day / 365

theorem eraDays_succ {year : Nat} (h : year < 399) :
    eraDays (year + 1) = eraDays year + eraYearLength year := by
  unfold eraDays eraYearLength
  split <;> omega

theorem eraDays_last : eraDays 399 + eraYearLength 399 = 146097 := by decide

theorem commonDays_mono {m n : Nat} (h : m ≤ n) : commonDays m ≤ commonDays n := by
  induction h with
  | refl => exact Nat.le_refl _
  | step _ ih =>
    refine ih.trans ?_
    unfold commonDays
    omega

theorem eraYear_ends : ∀ year < 400, eraYear (eraDays year) = year ∧
    eraYear (eraDays year + eraYearLength year - 1) = year := by
  decide +kernel

theorem eraYear_eq {year day : Nat} (hyear : year < 400) (hday : day < eraYearLength year) :
    eraYear (eraDays year + day) = year := by
  -- Common days never decrease, so that a day between the ends of a year has the year of both.
  obtain ⟨hfirst, hlast⟩ := eraYear_ends year hyear
  have hlow : commonDays (eraDays year) ≤ commonDays (eraDays year + day) :=
    commonDays_mono (by omega)
  have hhigh : commonDays (eraDays year + day)
      ≤ commonDays (eraDays year + eraYearLength year - 1) := commonDays_mono (by omega)
  unfold eraYear at hfirst hlast ⊢
  have hle := Nat.div_le_div_right (c := 365) hlow
  have hge := Nat.div_le_div_right (c := 365) hhigh
  omega

theorem exists_eraYear {n : Nat} (h : n < 146097) :
    ∃ year day, year < 400 ∧ day < eraYearLength year ∧ n = eraDays year + day := by
  -- By induction on a year that is not before the one looked for.
  have reach (k : Nat) (hk : k ≤ 399) (hn : n < eraDays k + eraYearLength k) :
      ∃ year day, year < 400 ∧ day < eraYearLength year ∧ n = eraDays year + day := by
    induction k with
    | zero => exact ⟨0, n, by omega, by simpa [eraDays] using hn, by simp [eraDays]⟩
    | succ k ih =>
      by_cases hlt : n < eraDays (k + 1)
      · rw [eraDays_succ (by omega)] at hlt
        exact ih (by omega) hlt
      · exact ⟨k + 1, n - eraDays (k + 1), by omega, by omega, by omega⟩
  exact reach 399 (Nat.le_refl _) (by rw [eraDays_last]; exact h)

def marchMonth (day : Nat) : Nat := (5 * day + 2) / 153

def marchDays (month : Nat) : Nat := (153 * month + 2) / 5

theorem marchMonth_spec {day : Nat} (h : day < 366) :
    marchMonth day < 12 ∧ marchDays (marchMonth day) ≤ day := by
  unfold marchMonth marchDays
  omega

theorem marchMonth_length : ∀ day < 366,
    day - marchDays (marchMonth day) < 31 ∧
      (marchMonth day ∈ [1, 3, 6, 8] → day - marchDays (marchMonth day) < 30) ∧
        (marchMonth day = 11 → day - marchDays (marchMonth day) < 29) ∧
          (marchMonth day = 11 → day < 365 → day - marchDays (marchMonth day) < 28) := by
  decide +kernel

theorem daysOfYears_natCast {year : Nat} (h : year < 400) :
    daysOfYears year = (eraDays year : Nat) := by
  unfold daysOfYears eraDays
  rw [times_of_le (by omega), floorQuotient_natCast (by omega), floorQuotient_natCast (by omega),
    sum_of_le (by omega), diff_of_le (by omega)]
  omega

theorem daysOfMonths_natCast {month : Nat} (h : month < 12) :
    daysOfMonths month = (marchDays month : Nat) := by
  unfold daysOfMonths marchDays
  rw [times_of_le (by omega), sum_of_le (by omega), floorQuotient_of_le (by omega)]
  omega

theorem yearOfDay_natCast {day : Nat} (h : day < 146097) : yearOfDay day = (eraYear day : Nat) := by
  unfold yearOfDay eraYear commonDays
  rw [floorQuotient_natCast (by omega), floorQuotient_natCast (by omega),
    floorQuotient_natCast (by omega), diff_of_le (m := (day : Int)) (by omega),
    sum_of_le (by omega), diff_of_le (by omega), floorQuotient_of_le (by omega)]
  omega

/-- An era, a year of the era and a day of the year, which begins in March. -/
structure MarchDate where
  era : Int
  year : Nat
  day : Nat
  year_lt : year < 400
  day_lt : day < eraYearLength year

namespace MarchDate

def dayOfEra (d : MarchDate) : Nat := eraDays d.year + d.day

def toDay (d : MarchDate) : Int := d.era * 146097 + d.dayOfEra - 719468

def month (d : MarchDate) : Nat := marchMonth d.day

def civil (d : MarchDate) : CivilDate where
  year := d.era * 400 + d.year + if d.month < 10 then 0 else 1
  month := if d.month < 10 then d.month + 3 else d.month - 9
  day := d.day - marchDays d.month + 1

theorem civil_year (d : MarchDate) :
    d.civil.year = d.era * 400 + d.year + if d.month < 10 then 0 else 1 := rfl

theorem civil_month (d : MarchDate) :
    d.civil.month = if d.month < 10 then (d.month : Int) + 3 else d.month - 9 := rfl

theorem civil_day (d : MarchDate) : d.civil.day = d.day - marchDays d.month + 1 := rfl

theorem day_lt_366 (d : MarchDate) : d.day < 366 := by
  have h := d.day_lt
  unfold eraYearLength at h
  split at h <;> omega

theorem month_lt (d : MarchDate) : d.month < 12 := (marchMonth_spec d.day_lt_366).1

theorem marchDays_le (d : MarchDate) : marchDays d.month ≤ d.day :=
  (marchMonth_spec d.day_lt_366).2

theorem eraDays_add_le {year : Nat} (h : year < 400) :
    eraDays year + eraYearLength year ≤ 146097 := by
  unfold eraDays eraYearLength
  split <;> omega

theorem dayOfEra_lt (d : MarchDate) : d.dayOfEra < 146097 := by
  have hday := d.day_lt
  have hyear := eraDays_add_le d.year_lt
  unfold dayOfEra
  omega

end MarchDate

theorem exists_march (day : Int) : ∃ d : MarchDate, d.toDay = day := by
  have hnonneg : 0 ≤ (day + 719468) % 146097 := by omega
  obtain ⟨n, hn⟩ := Int.eq_ofNat_of_zero_le hnonneg
  obtain ⟨year, dayOfYear, hyear, hlt, hsplit⟩ := exists_eraYear (n := n) (by omega)
  refine ⟨⟨(day + 719468) / 146097, year, dayOfYear, hyear, hlt⟩, ?_⟩
  simp only [MarchDate.toDay, MarchDate.dayOfEra, ← hsplit]
  omega

/-- A day that the conversions go to and from without rounding; the days on either side of them are
rounded. -/
def IsExact (day : Int) : Prop := -0x20000000000000 ≤ day ∧ day ≤ 0x20000000000000 - 719468

/-- A day for which the conversions stay within 53 bits, as those of the day across the epoch do. -/
def InReach (day : Int) : Prop := (day.natAbs : Int) ≤ Num.maxSafe - 719468

theorem InReach.bounds {day : Int} (h : InReach day) :
    -9007199254021523 ≤ day ∧ day ≤ 9007199254021523 := by
  simp only [InReach, Num.maxSafe] at h
  omega

theorem InReach.isExact {day : Int} (h : InReach day) : IsExact day := by
  obtain ⟨hlow, hhigh⟩ := h.bounds
  unfold IsExact
  omega

namespace MarchDate

variable {d : MarchDate}

theorem sum_toDay (h : IsExact d.toDay) : sum d.toDay 719468 = d.era * 146097 + d.dayOfEra := by
  obtain ⟨hlow, hhigh⟩ := h
  unfold toDay at hlow hhigh ⊢
  rw [sum_of_le (by omega)]
  omega

theorem floorQuotient_era (h : IsExact d.toDay) :
    floorQuotient (d.era * 146097 + d.dayOfEra) 146097 = d.era := by
  obtain ⟨hlow, hhigh⟩ := h
  have hera := d.dayOfEra_lt
  unfold toDay at hlow hhigh
  rw [floorQuotient_of_le (by omega)]
  omega

theorem diff_era (h : IsExact d.toDay) :
    diff (d.era * 146097 + d.dayOfEra) (times d.era 146097) = (d.dayOfEra : Nat) := by
  obtain ⟨hlow, hhigh⟩ := h
  have hera := d.dayOfEra_lt
  unfold toDay at hlow hhigh
  rw [times_of_le (by omega), diff_of_le (by omega)]
  omega

theorem yearOfDay_dayOfEra (d : MarchDate) : yearOfDay (d.dayOfEra : Nat) = (d.year : Nat) := by
  rw [yearOfDay_natCast d.dayOfEra_lt, dayOfEra, eraYear_eq d.year_lt d.day_lt]

theorem diff_daysOfYears (d : MarchDate) :
    diff (d.dayOfEra : Nat) (daysOfYears (d.year : Nat)) = (d.day : Nat) := by
  have hera := d.dayOfEra_lt
  rw [daysOfYears_natCast d.year_lt]
  unfold dayOfEra at hera ⊢
  rw [diff_of_le (by omega)]
  omega

theorem floorQuotient_month (d : MarchDate) :
    floorQuotient (sum (times 5 (d.day : Nat)) 2) 153 = (d.month : Nat) := by
  have hday := d.day_lt_366
  rw [times_of_le (by omega), sum_of_le (by omega), floorQuotient_of_le (by omega)]
  unfold month marchMonth
  omega

theorem civil_month_eq (d : MarchDate) :
    (if (d.month : Int) < 10 then sum d.month 3 else diff d.month 9) = d.civil.month := by
  have hmonth := d.month_lt
  rw [civil_month]
  by_cases hlt : d.month < 10
  · rw [if_pos (by omega), if_pos hlt, sum_of_le (by omega)]
  · rw [if_neg (by omega), if_neg hlt, diff_of_le (by omega)]

/-- January and February belong to the year after the one that began in March. -/
theorem civil_month_le_iff (d : MarchDate) : d.civil.month ≤ 2 ↔ ¬d.month < 10 := by
  have hmonth := d.month_lt
  rw [civil_month]
  split <;> omega

theorem civil_year_eq (h : IsExact d.toDay) :
    sum (sum (d.year : Nat) (times d.era 400)) (if d.civil.month ≤ 2 then 1 else 0)
      = d.civil.year := by
  obtain ⟨hlow, hhigh⟩ := h
  have hera := d.dayOfEra_lt
  have hyear := d.year_lt
  unfold toDay at hlow hhigh
  simp only [civil_year, civil_month_le_iff, ite_not]
  rw [times_of_le (by omega), sum_of_le (m := (d.year : Int)) (by omega)]
  split <;> rw [sum_of_le (by omega)] <;> omega

theorem civil_day_eq (d : MarchDate) :
    sum (diff (d.day : Nat) (marchDays d.month : Nat)) 1 = d.civil.day := by
  have hday := d.day_lt_366
  have hle := d.marchDays_le
  rw [civil_day, diff_of_le (by omega), sum_of_le (by omega)]

end MarchDate

theorem civilOfDay_toDay {d : MarchDate} (h : IsExact d.toDay) : civilOfDay d.toDay = d.civil := by
  simp only [civilOfDay, d.sum_toDay h, d.floorQuotient_era h, d.diff_era h, d.yearOfDay_dayOfEra,
    d.diff_daysOfYears, d.floorQuotient_month, daysOfMonths_natCast d.month_lt, d.civil_month_eq,
    d.civil_year_eq h, d.civil_day_eq]

theorem tmod_eq_zero {n m : Int} : n.tmod m = 0 ↔ n % m = 0 :=
  ⟨fun h => Int.emod_eq_zero_of_dvd (Int.dvd_of_tmod_eq_zero h),
    fun h => Int.tmod_eq_zero_of_dvd (Int.dvd_of_emod_eq_zero h)⟩

theorem isLeapYear_iff (year : Int) :
    isLeapYear year = true ↔ year % 4 = 0 ∧ year % 100 ≠ 0 ∨ year % 400 = 0 := by
  simp [isLeapYear, tmod_eq_zero]

namespace MarchDate

/-- The last day of a long year falls in a leap year. -/
theorem isLeapYear_civil {d : MarchDate} (h : d.day = 365) : isLeapYear d.civil.year = true := by
  have hday := d.day_lt
  have hyear := d.year_lt
  have hmonth : ¬d.month < 10 := by
    rw [month, h]
    decide
  unfold eraYearLength at hday
  rw [isLeapYear_iff, civil, if_neg hmonth]
  split at hday
  next hlong =>
    dsimp only
    omega
  next => omega

theorem civil_day_le (d : MarchDate) :
    d.civil.day ≤ daysInMonth d.civil.year d.civil.month := by
  have hmonth := d.month_lt
  have hle := d.marchDays_le
  obtain ⟨hlong, hshort, hfeb, hfeb'⟩ : d.day - marchDays d.month < 31 ∧
      (d.month ∈ [1, 3, 6, 8] → d.day - marchDays d.month < 30) ∧
        (d.month = 11 → d.day - marchDays d.month < 29) ∧
          (d.month = 11 → d.day < 365 → d.day - marchDays d.month < 28) :=
    marchMonth_length d.day d.day_lt_366
  -- counted from March, the months of thirty days are 1, 3, 6 and 8, and February is the last
  have hindex : d.civil.month = 2 ↔ d.month = 11 := by
    rw [civil_month]
    split <;> omega
  have hthirty : d.civil.month = 4 ∨ d.civil.month = 6 ∨ d.civil.month = 9 ∨ d.civil.month = 11 ↔
      d.month = 1 ∨ d.month = 3 ∨ d.month = 6 ∨ d.month = 8 := by
    rw [civil_month]
    split <;> omega
  rw [civil_day, daysInMonth]
  simp only [Bool.or_eq_true, decide_eq_true_eq, or_assoc, hthirty, hindex]
  by_cases hlast : d.month = 11
  · rw [if_pos hlast]
    have hday := d.day_lt_366
    by_cases hleap : d.day = 365
    · rw [if_pos (isLeapYear_civil hleap)]
      have := hfeb hlast
      omega
    · have := hfeb' hlast (by omega)
      split <;> omega
  · rw [if_neg hlast]
    split
    next hmem =>
      have := hshort (by simpa using hmem)
      omega
    next => omega

theorem civil_isValid (d : MarchDate) : d.civil.isValid = true := by
  have hmonth := d.month_lt
  have hle := d.marchDays_le
  simp only [CivilDate.isValid, Bool.and_eq_true, decide_eq_true_eq, civil_day_le, and_true]
  rw [civil_month, civil_day]
  split <;> omega

end MarchDate

namespace MarchDate

variable {d : MarchDate}

theorem marchYear_civil (h : IsExact d.toDay) :
    (if d.civil.month ≤ 2 then diff d.civil.year 1 else d.civil.year) = d.era * 400 + d.year := by
  obtain ⟨hlow, hhigh⟩ := h
  have hera := d.dayOfEra_lt
  have hyear := d.year_lt
  unfold toDay at hlow hhigh
  simp only [civil_year, civil_month_le_iff]
  by_cases hlt : d.month < 10
  · rw [if_neg (not_not.2 hlt), if_pos hlt, Int.add_zero]
  · rw [if_pos hlt, if_neg hlt, diff_of_le (by omega)]
    omega

theorem floorQuotient_marchYear (h : IsExact d.toDay) :
    floorQuotient (d.era * 400 + d.year) 400 = d.era := by
  obtain ⟨hlow, hhigh⟩ := h
  have hera := d.dayOfEra_lt
  have hyear := d.year_lt
  unfold toDay at hlow hhigh
  rw [floorQuotient_of_le (by omega)]
  omega

theorem diff_marchYear (h : IsExact d.toDay) :
    diff (d.era * 400 + d.year) (times d.era 400) = (d.year : Nat) := by
  obtain ⟨hlow, hhigh⟩ := h
  have hera := d.dayOfEra_lt
  have hyear := d.year_lt
  unfold toDay at hlow hhigh
  rw [times_of_le (by omega), diff_of_le (by omega)]
  omega

theorem marchMonth_civil (d : MarchDate) : (sum d.civil.month 9).tmod 12 = (d.month : Nat) := by
  have hmonth := d.month_lt
  rw [civil_month]
  split
  · rw [sum_of_le (by omega), Int.tmod_eq_emod_of_nonneg (by omega)]
    omega
  · rw [sum_of_le (by omega), Int.tmod_eq_emod_of_nonneg (by omega)]
    omega

theorem marchDay_civil (d : MarchDate) :
    diff (sum (marchDays d.month : Nat) d.civil.day) 1 = (d.day : Nat) := by
  have hday := d.day_lt_366
  have hle := d.marchDays_le
  rw [civil_day, sum_of_le (by omega), diff_of_le (by omega)]
  omega

theorem sum_dayOfEra (d : MarchDate) :
    sum (eraDays d.year : Nat) (d.day : Nat) = (d.dayOfEra : Nat) := by
  have hera := d.dayOfEra_lt
  unfold dayOfEra at hera ⊢
  rw [sum_of_le (by omega)]
  omega

theorem diff_sum_era (h : IsExact d.toDay) :
    diff (sum (times d.era 146097) (d.dayOfEra : Nat)) 719468 = d.toDay := by
  obtain ⟨hlow, hhigh⟩ := h
  have hera := d.dayOfEra_lt
  unfold toDay at hlow hhigh ⊢
  rw [times_of_le (by omega), sum_of_le (by omega), diff_of_le (by omega)]

end MarchDate

theorem dayOfCivil_civil {d : MarchDate} (h : IsExact d.toDay) :
    dayOfCivil d.civil.year d.civil.month d.civil.day = d.toDay := by
  simp only [dayOfCivil, d.marchYear_civil h, d.floorQuotient_marchYear h, d.diff_marchYear h,
    d.marchMonth_civil, daysOfMonths_natCast d.month_lt, d.marchDay_civil,
    daysOfYears_natCast d.year_lt, d.sum_dayOfEra, d.diff_sum_era h]

/-- The day on which a year begins, counted with the leap years before it. -/
def yearStart (year : Int) : Int :=
  365 * year + (year + 3) / 4 - (year + 99) / 100 + (year + 399) / 400 - 719528

theorem yearStart_succ (year : Int) :
    yearStart (year + 1) = yearStart year + if isLeapYear year = true then 366 else 365 := by
  simp only [isLeapYear_iff]
  unfold yearStart
  split <;> omega

example : yearStart 1970 = 0 := by decide

/-- A day lies in a year of the proleptic Gregorian calendar. -/
def InYear (day year : Int) : Prop := yearStart year ≤ day ∧ day < yearStart (year + 1)

theorem yearStart_mono {m n : Int} (h : m ≤ n) : yearStart m ≤ yearStart n := by
  obtain ⟨k, rfl⟩ := Int.le.dest h
  induction k with
  | zero => simp
  | succ k ih =>
    have hstep := yearStart_succ (m + k)
    have ih := ih (by omega)
    rw [Int.natCast_succ, ← Int.add_assoc, hstep]
    split <;> omega

theorem inYear_unique {day m n : Int} (hm : InYear day m) (hn : InYear day n) : m = n := by
  by_contra hne
  rcases Int.lt_or_gt_of_ne hne with hlt | hgt
  · have h := yearStart_mono (m := m + 1) (n := n) (by omega)
    have := hm.2
    have := hn.1
    omega
  · have h := yearStart_mono (m := n + 1) (n := m) (by omega)
    have := hn.2
    have := hm.1
    omega

theorem civil_inYear (d : MarchDate) : InYear d.toDay d.civil.year := by
  have hyear := d.year_lt
  have hday := d.day_lt
  have hday366 := d.day_lt_366
  have hmonth : d.month < 10 ↔ d.day < 306 := by
    unfold MarchDate.month marchMonth
    omega
  rw [d.civil_year]
  unfold InYear yearStart MarchDate.toDay MarchDate.dayOfEra eraDays
  unfold eraYearLength at hday
  split at hday <;> split <;> omega

end Datum.Calendar
