import Datum.Proofs.Calendar.Civil

/-!
# The order of dates

The number of a date counts the days of the years before it, of the months before it and of its own
month. Valid dates are in the order of their numbers, and the number of the date that the calendar
gives to a day is that day. So the conversions are inverse to each other and keep the order, up to
the two dates beyond which days are rounded.
-/

set_option autoImplicit false

namespace Datum

def CivilDate.Before (b c : CivilDate) : Prop :=
  b.year < c.year ∨
    b.year = c.year ∧ (b.month < c.month ∨ b.month = c.month ∧ b.day < c.day)

instance (b c : CivilDate) : Decidable (b.Before c) :=
  inferInstanceAs (Decidable (_ ∨ _))

namespace Calendar

def daysOfFirst (year : Int) : Nat → Int
  | 0 => 0
  | months + 1 => daysOfFirst year months + daysInMonth year (months + 1)

variable {year : Int} {m n : Nat}

theorem daysInMonth_pos (year month : Int) : 0 < daysInMonth year month := by
  unfold daysInMonth
  split
  · split <;> decide
  · split <;> decide

theorem daysOfFirst_mono (year : Int) (h : m ≤ n) : daysOfFirst year m ≤ daysOfFirst year n := by
  induction h with
  | refl => exact Int.le_refl _
  | @step n _ ih =>
    have hpos := daysInMonth_pos year (n + 1)
    rw [daysOfFirst]
    omega

theorem daysOfFirst_year (year : Int) :
    yearStart year + daysOfFirst year 12 = yearStart (year + 1) := by
  rw [yearStart_succ]
  by_cases hleap : isLeapYear year = true <;> simp [daysOfFirst, daysInMonth, hleap]

theorem daysOfFirst_march (hm : m < 10) : daysOfFirst year (m + 2) =
    marchDays m + if isLeapYear year = true then 60 else 59 := by
  by_cases hleap : isLeapYear year = true <;>
    interval_cases m <;> simp [daysOfFirst, daysInMonth, marchDays, hleap]

end Calendar

namespace CivilDate

open Calendar

variable {b c : CivilDate}

def number (c : CivilDate) : Int :=
  yearStart c.year + daysOfFirst c.year (c.month - 1).toNat + (c.day - 1)

theorem number_bounds (hc : c.isValid = true) : ∃ m : Nat, m < 12 ∧ c.month = m + 1 ∧
    c.number = yearStart c.year + daysOfFirst c.year m + (c.day - 1) ∧ 1 ≤ c.day ∧
      c.number < yearStart c.year + daysOfFirst c.year (m + 1) := by
  simp only [isValid, Bool.and_eq_true, decide_eq_true_eq] at hc
  refine ⟨(c.month - 1).toNat, by omega, by omega, rfl, by omega, ?_⟩
  have hmonth : ((c.month - 1).toNat : Int) + 1 = c.month := by omega
  rw [daysOfFirst, hmonth, number]
  omega

theorem number_inYear (hc : c.isValid = true) : InYear c.number c.year := by
  obtain ⟨m, hm, -, hnumber, hday, hlt⟩ := number_bounds hc
  have hfirst := daysOfFirst_mono c.year (Nat.zero_le m)
  have hlast := daysOfFirst_mono c.year (show m + 1 ≤ 12 by omega)
  have hyear := daysOfFirst_year c.year
  unfold InYear
  rw [daysOfFirst] at hfirst
  omega

theorem number_lt (hb : b.isValid = true) (hc : c.isValid = true) (h : b.Before c) :
    b.number < c.number := by
  rcases h with hyear | ⟨hyear, horder⟩
  · have hnext := yearStart_mono (Int.add_one_le_of_lt hyear)
    exact Int.lt_of_lt_of_le (number_inYear hb).2 (Int.le_trans hnext (number_inYear hc).1)
  · obtain ⟨m, -, hm, hbnumber, -, hlt⟩ := number_bounds hb
    obtain ⟨n, -, hn, hcnumber, hday, -⟩ := number_bounds hc
    rw [hyear] at hbnumber hlt
    rcases horder with hmonth | ⟨hmonth, hday⟩
    · have hmono := daysOfFirst_mono c.year (show m + 1 ≤ n by omega)
      omega
    · obtain rfl : m = n := by omega
      omega

theorem before_trichotomy (b c : CivilDate) : b.Before c ∨ b = c ∨ c.Before b := by
  unfold Before
  rw [CivilDate.mk.injEq]
  omega

theorem number_lt_iff (hb : b.isValid = true) (hc : c.isValid = true) :
    b.number < c.number ↔ b.Before c := by
  refine ⟨fun h => ?_, number_lt hb hc⟩
  rcases before_trichotomy b c with hbefore | rfl | hafter
  · exact hbefore
  · exact absurd h (Int.lt_irrefl _)
  · exact absurd (Int.lt_trans h (number_lt hc hb hafter)) (Int.lt_irrefl _)

theorem number_inj (hb : b.isValid = true) (hc : c.isValid = true) (h : b.number = c.number) :
    b = c := by
  rcases before_trichotomy b c with hbefore | heq | hafter
  · exact absurd h (Int.ne_of_lt (number_lt hb hc hbefore))
  · exact heq
  · exact absurd h.symm (Int.ne_of_lt (number_lt hc hb hafter))

end CivilDate

namespace Calendar

theorem MarchDate.number_civil (d : MarchDate) : d.civil.number = d.toDay := by
  have hyear := d.year_lt
  have hmonth := d.month_lt
  have hle := d.marchDays_le
  rw [CivilDate.number, civil_month, civil_day]
  by_cases hmarch : d.month < 10
  · have htoNat : ((d.month : Int) + 3 - 1).toNat = d.month + 2 := by omega
    rw [if_pos hmarch, htoNat, daysOfFirst_march hmarch]
    simp only [isLeapYear_iff, civil_year, if_pos hmarch]
    unfold yearStart toDay dayOfEra eraDays
    split <;> omega
  · have hwinter : daysOfFirst d.civil.year ((d.month : Int) - 9 - 1).toNat
        = (marchDays d.month : Int) - 306 := by
      obtain h | h : d.month = 10 ∨ d.month = 11 := by omega
      · rw [h]
        rfl
      · rw [h]
        rfl
    rw [if_neg hmarch, hwinter, civil_year, if_neg hmarch]
    unfold yearStart toDay dayOfEra eraDays
    omega

theorem exists_march_civil {c : CivilDate} (hc : c.isValid = true) :
    ∃ d : MarchDate, d.civil = c ∧ d.toDay = c.number := by
  obtain ⟨d, hd⟩ := exists_march c.number
  exact ⟨d, CivilDate.number_inj d.civil_isValid hc (d.number_civil.trans hd), hd⟩

def firstDate : CivilDate := ⟨-24660873950928, 12, 22⟩

def lastDate : CivilDate := ⟨24660873952897, 3, 10⟩

/-- A valid date from the first to the last one that the conversions do not round. -/
structure IsExactDate (c : CivilDate) : Prop where
  valid : c.isValid = true
  notBefore : ¬c.Before firstDate
  notAfter : ¬lastDate.Before c

variable {b c : CivilDate}

theorem isExact_number (hc : c.isValid = true) : IsExact c.number ↔ IsExactDate c := by
  have hfirst : firstDate.number = -0x20000000000000 := by decide
  have hlast : lastDate.number = 0x20000000000000 - 719468 := by decide
  have hlow := CivilDate.number_lt_iff hc (show firstDate.isValid = true by decide)
  have hhigh := CivilDate.number_lt_iff (show lastDate.isValid = true by decide) hc
  rw [hfirst] at hlow
  rw [hlast] at hhigh
  unfold IsExact
  constructor
  · intro h
    exact ⟨hc, mt hlow.2 (by omega), mt hhigh.2 (by omega)⟩
  · intro h
    exact ⟨Int.not_lt.1 (mt hlow.1 h.notBefore), Int.not_lt.1 (mt hhigh.1 h.notAfter)⟩

theorem civilOfDay_of_isExact {day : Int} (h : IsExact day) :
    IsExactDate (civilOfDay day) ∧ (civilOfDay day).number = day := by
  obtain ⟨d, rfl⟩ := exists_march day
  rw [civilOfDay_toDay h, d.number_civil]
  rw [← d.number_civil] at h
  exact ⟨(isExact_number d.civil_isValid).1 h, rfl⟩

theorem dayOfCivil_of_isExactDate (hc : IsExactDate c) :
    dayOfCivil c.year c.month c.day = c.number := by
  obtain ⟨d, rfl, hd⟩ := exists_march_civil hc.valid
  have hexact := (isExact_number hc.valid).2 hc
  rw [← hd] at hexact ⊢
  exact dayOfCivil_civil hexact

/-- The conversions of the calendar are inverse to each other between the exact days and the dates
from the first to the last one, and the order of days is that of years, months and days. -/
theorem calendar_order :
    (∀ day, IsExact day → IsExactDate (civilOfDay day) ∧
      dayOfCivil (civilOfDay day).year (civilOfDay day).month (civilOfDay day).day = day) ∧
    (∀ c, IsExactDate c → IsExact (dayOfCivil c.year c.month c.day) ∧
      civilOfDay (dayOfCivil c.year c.month c.day) = c) ∧
    ∀ b c, IsExactDate b → IsExactDate c →
      (dayOfCivil b.year b.month b.day < dayOfCivil c.year c.month c.day ↔ b.Before c) := by
  refine ⟨fun day h => ?_, fun c hc => ?_, fun b c hb hc => ?_⟩
  · obtain ⟨hdate, hnumber⟩ := civilOfDay_of_isExact h
    exact ⟨hdate, (dayOfCivil_of_isExactDate hdate).trans hnumber⟩
  · rw [dayOfCivil_of_isExactDate hc]
    have hexact := (isExact_number hc.valid).2 hc
    obtain ⟨hdate, hnumber⟩ := civilOfDay_of_isExact hexact
    exact ⟨hexact, CivilDate.number_inj hdate.valid hc.valid hnumber⟩
  · rw [dayOfCivil_of_isExactDate hb, dayOfCivil_of_isExactDate hc]
    exact CivilDate.number_lt_iff hb.valid hc.valid

theorem calendar_order_of_ends :
    IsExactDate (civilOfDay (-0x20000000000000)) ∧
      civilOfDay (dayOfCivil 2000 2 29) = ⟨2000, 2, 29⟩ ∧
        dayOfCivil 24660873952897 3 9 < dayOfCivil 24660873952897 3 10 := by
  have hleap : IsExactDate ⟨2000, 2, 29⟩ := ⟨by decide, by decide, by decide⟩
  have heve : IsExactDate ⟨24660873952897, 3, 9⟩ := ⟨by decide, by decide, by decide⟩
  have hlast : IsExactDate lastDate := ⟨by decide, by decide, by decide⟩
  have hday : IsExact (-0x20000000000000) := ⟨by decide, by decide⟩
  obtain ⟨hdate, hback, horder⟩ := calendar_order
  exact ⟨(hdate _ hday).1, (hback _ hleap).2, (horder _ _ heve hlast).2 (by decide)⟩

/-- The year of the last exact day has further dates: the first of them falls on the same day as
the date before it, and has another date there. -/
theorem dates_after_last :
    InReach 9007199254021523 ∧ (civilOfDay 9007199254021523).year = 24660873952897 ∧
      (⟨24660873952897, 3, 11⟩ : CivilDate).isValid = true ∧
      lastDate.Before ⟨24660873952897, 3, 11⟩ ∧
      dayOfCivil 24660873952897 3 11 = dayOfCivil 24660873952897 3 10 ∧
      civilOfDay (dayOfCivil 24660873952897 3 11) ≠ ⟨24660873952897, 3, 11⟩ :=
  ⟨Int.le_refl _, by decide⟩

end Calendar

end Datum
