import Datum.Proofs.Calendar.Civil
import Datum.Proofs.Calendar.Times

/-!
# Dates and timestamps as text

A date is read back from its text if its year has at most nine digits, and is refused if the year
has more. In a timestamp the blank after the date, and the sign after the time, end what the readers
before them take.
-/

set_option autoImplicit false

namespace Datum.Calendar

open Text (unit digitsValue IsNumeral NoDigitNext twoDigits minusIf)

def maxYear : Int := 999999999

namespace MarchDate

def yearDigits (d : MarchDate) : Text := Text.padZeros 4 (Text.ofNat d.civil.year.natAbs)

def monthAndDay (d : MarchDate) : Text :=
  unit '-' :: (twoDigits d.civil.month.toNat ++ unit '-' :: twoDigits d.civil.day.toNat)

theorem civil_bounds (d : MarchDate) :
    1 ≤ d.civil.month ∧ d.civil.month ≤ 12 ∧ 1 ≤ d.civil.day ∧ d.civil.day ≤ 31 := by
  have hmonth := d.month_lt
  have hle := d.marchDays_le
  have hlength : d.day - marchDays d.month < 31 := (marchMonth_length d.day d.day_lt_366).1
  rw [civil_month, civil_day]
  split <;> omega

theorem civil_year_lt {d : MarchDate} (h : InReach d.toDay) :
    d.civil.year.natAbs < 0x20000000000000 := by
  obtain ⟨hlow, hhigh⟩ := h.bounds
  have hera := d.dayOfEra_lt
  have hyear := d.year_lt
  unfold toDay at hlow hhigh
  rw [civil_year]
  split <;> omega

theorem yearDigits_isNumeral (d : MarchDate) : IsNumeral d.yearDigits d.civil.year.natAbs :=
  (Text.isNumeral_ofNat _).padZeros 4

theorem yearDigits_length (d : MarchDate) :
    d.yearDigits.length ≤ 9 ↔ (d.civil.year.natAbs : Int) ≤ maxYear := by
  have hiff := Text.length_ofNat_le_iff d.civil.year.natAbs (k := 9) (by decide)
  rw [yearDigits, Text.length_padZeros, maxYear]
  omega

end MarchDate

theorem formatDate_toDay {d : MarchDate} (h : InReach d.toDay) :
    formatDate d.toDay = minusIf (d.civil.year < 0) ++ (d.yearDigits ++ d.monthAndDay) := by
  obtain ⟨hm, hm', hd, hd'⟩ := d.civil_bounds
  have hmonth : padded 2 d.civil.month = twoDigits d.civil.month.toNat := by
    rw [← padded_two (by omega), Int.toNat_of_nonneg (by omega)]
  have hday : padded 2 d.civil.day = twoDigits d.civil.day.toNat := by
    rw [← padded_two (by omega), Int.toNat_of_nonneg (by omega)]
  have hdigits : padded 4 (d.civil.year.natAbs : Int) = d.yearDigits :=
    padded_natCast 4 (d.civil_year_lt h)
  have hyear : (if d.civil.year < 0 then [unit '-'] ++ padded 4 (-d.civil.year)
      else padded 4 d.civil.year) = minusIf (d.civil.year < 0) ++ d.yearDigits := by
    rw [← hdigits]
    by_cases hneg : d.civil.year < 0
    · have habs : -d.civil.year = (d.civil.year.natAbs : Int) := by omega
      rw [if_pos hneg, habs, minusIf, if_pos (decide_eq_true hneg)]
    · have habs : d.civil.year = (d.civil.year.natAbs : Int) := by omega
      rw [if_neg hneg, ← habs, minusIf, if_neg (by simpa using hneg), List.nil_append]
  simp only [formatDate, civilOfDay_toDay h.isExact, hmonth, hday]
  rw [hyear]
  simp only [MarchDate.monthAndDay, List.append_assoc, List.cons_append, List.nil_append]

theorem monthAndDay_noDigitNext (d : MarchDate) (t : Text) :
    NoDigitNext (d.monthAndDay ++ t) := Text.noDigitNext_cons (by decide)

/-- A written date is read up to its end if its year has at most nine digits, and not at all if it
has more. -/
theorem datePart?_formatDate {d : MarchDate} (h : InReach d.toDay) {t : Text}
    (ht : NoDigitNext t) :
    datePart? (formatDate d.toDay ++ t)
      = if (d.civil.year.natAbs : Int) ≤ maxYear then some (d.civil, t) else none := by
  have hyear := d.yearDigits_isNumeral
  have hpos : 1 ≤ d.yearDigits.length := List.length_pos_iff.2 hyear.ne_nil
  rw [formatDate_toDay h, List.append_assoc, List.append_assoc, datePart?]
  simp only [Text.takeSign_minusIf _ hyear.ne_nil hyear.isDigit]
  by_cases hle : (d.civil.year.natAbs : Int) ≤ maxYear
  · obtain ⟨hm, hm', hd, hd'⟩ := d.civil_bounds
    have hmonth : d.civil.month.toNat < 100 := by omega
    have hday : d.civil.day.toNat < 100 := by omega
    have hsigned : (if decide (d.civil.year < 0) = true then -(d.civil.year.natAbs : Int)
        else d.civil.year.natAbs) = d.civil.year := by
      simp only [decide_eq_true_eq]
      split <;> omega
    rw [if_pos hle, digitRun?_append hyear.isDigit (monthAndDay_noDigitNext d t) hpos
      (d.yearDigits_length.2 hle), MarchDate.monthAndDay]
    simp only [Option.bind_eq_bind, Option.bind_some, List.cons_append, List.append_assoc,
      expect?_cons]
    rw [digitRun?_append (Text.twoDigits_isDigit hmonth) (Text.noDigitNext_cons (by decide))
      (by simp [twoDigits]) (by simp [twoDigits])]
    simp only [Option.bind_some, expect?_cons]
    rw [digitRun?_append (Text.twoDigits_isDigit hday) ht (by simp [twoDigits])
      (by simp [twoDigits])]
    simp only [Option.bind_some, hyear.value, hsigned, Text.digitsValue_twoDigits hmonth,
      Text.digitsValue_twoDigits hday, Int.toNat_of_nonneg (show 0 ≤ d.civil.month by omega),
      Int.toNat_of_nonneg (show 0 ≤ d.civil.day by omega)]
    rfl
  · have hlong : ¬d.yearDigits.length ≤ 9 := mt d.yearDigits_length.1 hle
    have hrun : digitRun? 1 9 (d.yearDigits ++ (d.monthAndDay ++ t)) = none := by
      simp [digitRun?, Text.spanDigits_append hyear.isDigit (monthAndDay_noDigitNext d t), hlong]
    rw [if_neg hle, hrun]
    rfl

theorem toDay?_civil {d : MarchDate} (h : InReach d.toDay) : d.civil.toDay? = some d.toDay := by
  rw [CivilDate.toDay?, if_pos d.civil_isValid, dayOfCivil_civil h.isExact]

variable {day year : Int}

theorem exists_march_inYear (hyear : InYear day year) :
    ∃ d : MarchDate, d.toDay = day ∧ d.civil.year = year := by
  obtain ⟨d, rfl⟩ := exists_march day
  exact ⟨d, rfl, inYear_unique (civil_inYear d) hyear⟩

theorem parseDate?_formatDate (h : InReach day) (hyear : InYear day year) :
    parseDate? (formatDate day) = if (year.natAbs : Int) ≤ maxYear then some day else none := by
  obtain ⟨d, rfl, rfl⟩ := exists_march_inYear hyear
  have hpart := datePart?_formatDate h Text.noDigitNext_nil
  rw [List.append_nil] at hpart
  rw [parseDate?, hpart]
  split
  next => exact toDay?_civil h
  next => rfl

theorem timeAfterDate_formatTime {n : Nat} (hn : n < 86400000000000) {t : Text}
    (ht : NoDigitNext t) (hpoint : t.head? ≠ some (unit '.')) :
    ∃ c, timeAfterDate (unit ' ' :: (formatTime n ++ t)) = (c, t) ∧
      c.toNanos? = some (n : Int) := by
  obtain ⟨c, hpart, hnanos⟩ := timePart?_formatTime hn ht hpoint
  exact ⟨c, by simp [timeAfterDate, hpart], hnanos⟩

theorem parseTimestampLiteral?_formatDate (h : InReach day) (hyear : InYear day year) {n : Nat}
    (hn : n < 86400000000000) {t : Text} (ht : NoDigitNext t) (hpoint : t.head? ≠ some (unit '.')) :
    parseTimestampLiteral? (formatDate day ++ unit ' ' :: (formatTime n ++ t))
      = if (year.natAbs : Int) ≤ maxYear then (offsetAtEnd? t).map fun offset => ⟨day, n, offset⟩
        else none := by
  obtain ⟨d, rfl, rfl⟩ := exists_march_inYear hyear
  obtain ⟨c, htime, hnanos⟩ := timeAfterDate_formatTime hn ht hpoint
  have hblank : NoDigitNext (unit ' ' :: (formatTime n ++ t)) := Text.noDigitNext_cons (by decide)
  rw [parseTimestampLiteral?, datePart?_formatDate h hblank]
  split
  next =>
    simp only [Option.bind_eq_bind, Option.bind_some, htime, toDay?_civil h, hnanos]
    cases offsetAtEnd? t <;> rfl
  next => rfl

theorem formatDate_isBlank (h : InReach day) : ∀ u ∈ formatDate day, Text.isBlank u = false := by
  obtain ⟨d, rfl⟩ := exists_march day
  obtain ⟨hm, hm', hd, hd'⟩ := d.civil_bounds
  have hminus : Text.isBlank (unit '-') = false := by decide
  have hsign : ∀ u ∈ minusIf (d.civil.year < 0), Text.isBlank u = false := by
    intro u hu
    rw [Text.eq_of_mem_minusIf hu]
    exact hminus
  rw [formatDate_toDay h, MarchDate.monthAndDay]
  simp only [List.forall_mem_append, List.forall_mem_cons]
  exact ⟨hsign, fun u hu => Text.isBlank_of_isDigit (d.yearDigits_isNumeral.isDigit u hu), hminus,
    twoDigits_isBlank (by omega), hminus, twoDigits_isBlank (by omega)⟩

theorem formatDate_ne_nil (h : InReach day) : formatDate day ≠ [] := by
  obtain ⟨d, rfl⟩ := exists_march day
  rw [formatDate_toDay h]
  simp [MarchDate.monthAndDay]

end Datum.Calendar
