import Datum.Proofs.Calendar.Dates
import Datum.Proofs.Convert.TextRoundTrip

/-!
# Dates and timestamps through text

Dates and timestamps, with an offset or without one, are converted to a string and back to an equal
value as far as the grammar of years reaches. Beyond it the string is refused; it is never taken for
another date, time or offset.
-/

set_option autoImplicit false

namespace Datum

open Calendar

namespace Value

def epochDay? : Value → Option Int
  | .date day | .timestamp day _ | .timestampTz day _ _ => some day.val
  | _ => none

theorem isSafe_of_inReach {day : Int} (h : InReach day) : Num.isSafe day = true := by
  obtain ⟨hlow, hhigh⟩ := h.bounds
  rw [Num.isSafe_iff]
  omega

theorem dateTime_append (day : Whole) (nanos : Int) (t : Text) :
    dateTime day nanos ++ t = formatDate day.val ++ Text.unit ' ' :: (formatTime nanos ++ t) := by
  simp [dateTime]

theorem dateTime_isTight {day : Whole} (h : InReach day.val) {n : Nat} (hn : n < 86400000000000)
    {t : Text} (ht : ∀ u ∈ t, Text.isBlank u = false) : (dateTime day n ++ t).IsTight := by
  have hne : formatTime n ++ t ≠ [] := by simp [formatTime_natCast hn, Text.twoDigits]
  have hdate := Text.isTight_of_forall (formatDate_isBlank h)
  have htime : (formatTime n ++ t).IsTight :=
    Text.isTight_of_forall (List.forall_mem_append.2 ⟨formatTime_isBlank hn, ht⟩)
  rw [dateTime, List.append_assoc]
  exact Text.isTight_append (formatDate_ne_nil h) hne hdate htime [Text.unit ' ']

end Value

namespace Convert

/-- A value has a text without blanks at its ends. The rule of its kind gives it back from that text
if the text is within the grammar, and refuses the text if it is not. -/
def ReadsBackIf (inGrammar : Prop) (v : Value) (c : ConvertContext) : Prop :=
  ∃ t, v.text = .ok t ∧ t.IsTight ∧
    (inGrammar → ∀ k, ∃ w, byRule (.string k t) v.kind c = .ok w ∧ w.equals v = true) ∧
    (¬inGrammar → ∀ k, byRule (.string k t) v.kind c = malformed (.string k t) v.kind)

section Strings

variable (k : StringKind) (t : Text) (c : ConvertContext)

theorem byRule_date : byRule (.string k t) .date c = match parseDate? t.trim with
    | some day => Value.ofDay (.int day)
    | none => malformed (.string k t) .date := rfl

theorem byRule_timestamp :
    byRule (.string k t) .timestamp c = match parseTimestampLiteral? t.trim with
      | none => malformed (.string k t) .timestamp
      | some l =>
        match l.offset with
        | none => Value.ofTimestamp (.int l.epochDay) l.nanos
        | some offset => Value.ofTimestampTz (.int l.epochDay) l.nanos (.int offset) >>= fun _ =>
          instantToTimestamp l.epochDay l.nanos offset c.session := rfl

theorem byRule_timestampTz :
    byRule (.string k t) .timestampTz c = match parseTimestampLiteral? t.trim with
      | none => malformed (.string k t) .timestampTz
      | some l =>
        match l.offset with
        | some offset => Value.ofTimestampTz (.int l.epochDay) l.nanos (.int offset)
        | none => zoned l.epochDay l.nanos c.session := rfl

end Strings

variable {day : Whole} {nanos year : Int}

theorem date_readsBackIf (h : InReach day.val) (hyear : InYear day.val year) (c : ConvertContext) :
    ReadsBackIf ((year.natAbs : Int) ≤ maxYear) (.date day) c := by
  have htight := Text.isTight_of_forall (formatDate_isBlank h)
  have hread := parseDate?_formatDate h hyear
  refine ⟨formatDate day.val, rfl, htight, fun hle k => ?_, fun hlt k => ?_⟩
  · rw [if_pos hle] at hread
    refine ⟨.date (.int day.val), ?_, by simp [Whole.val]⟩
    rw [Value.kind_date, byRule_date, Text.trim_of_isTight htight, hread]
    simp [Value.ofDay, Value.checkDay_of_isSafe (Value.isSafe_of_inReach h)]
  · rw [if_neg hlt] at hread
    rw [Value.kind_date, byRule_date, Text.trim_of_isTight htight, hread]

theorem timestamp_readsBackIf (h : InReach day.val) (hyear : InYear day.val year)
    (hn : IsNanos nanos) (c : ConvertContext) :
    ReadsBackIf ((year.natAbs : Int) ≤ maxYear) (.timestamp day nanos) c := by
  obtain ⟨n, rfl, hlt⟩ := hn.natCast
  have htight := Value.dateTime_isTight h hlt (t := []) (by simp)
  have hread := parseTimestampLiteral?_formatDate h hyear hlt Text.noDigitNext_nil (by simp)
  rw [← Value.dateTime_append] at hread
  rw [List.append_nil] at htight hread
  refine ⟨Value.dateTime day n, rfl, htight, fun hle k => ?_, fun hgt k => ?_⟩
  · rw [if_pos hle] at hread
    refine ⟨.timestamp (.int day.val) n, ?_, by simp [Whole.val]⟩
    rw [Value.kind_timestamp, byRule_timestamp, Text.trim_of_isTight htight, hread]
    simp [offsetAtEnd?, Value.ofTimestamp, Value.checkDay_of_isSafe (Value.isSafe_of_inReach h),
      Value.checkNanos_of_isNanos hn]
  · rw [if_neg hgt] at hread
    rw [Value.kind_timestamp, byRule_timestamp, Text.trim_of_isTight htight, hread]

theorem timestampTz_readsBackIf {offset : Whole} (h : InReach day.val)
    (hyear : InYear day.val year) (hn : IsNanos nanos) (ho : IsOffset offset.val)
    (c : ConvertContext) :
    ReadsBackIf ((year.natAbs : Int) ≤ maxYear) (.timestampTz day nanos offset) c := by
  obtain ⟨n, rfl, hlt⟩ := hn.natCast
  obtain ⟨hdigit, hpoint⟩ := noDigitNext_formatOffset ho.natAbs_le
  have htight := Value.dateTime_isTight h hlt (formatOffset_isBlank ho.natAbs_le)
  have hread := parseTimestampLiteral?_formatDate h hyear hlt hdigit hpoint
  rw [← Value.dateTime_append, offsetAtEnd?_formatOffset ho.natAbs_le] at hread
  refine ⟨Value.dateTime day n ++ formatOffset offset.val, rfl, htight, fun hle k => ?_,
    fun hgt k => ?_⟩
  · rw [if_pos hle] at hread
    refine ⟨.timestampTz (.int day.val) n (.int offset.val), ?_,
      by simp [Whole.val]⟩
    rw [Value.kind_timestampTz, byRule_timestampTz, Text.trim_of_isTight htight, hread]
    simp [Value.ofTimestampTz, Value.checkDay_of_isSafe (Value.isSafe_of_inReach h),
      Value.checkNanos_of_isNanos hn, Value.checkOffset_of_isOffset ho]
  · rw [if_neg hgt] at hread
    rw [Value.kind_timestampTz, byRule_timestampTz, Text.trim_of_isTight htight, hread]

theorem readsBackIf_of_epochDay {v : Value} {day : Int} (hday : v.epochDay? = some day)
    (hv : v.WellFormed) (hreach : InReach day) (hyear : InYear day year) (c : ConvertContext) :
    ReadsBackIf ((year.natAbs : Int) ≤ maxYear) v c := by
  cases v with
  | date day =>
    cases hday
    exact date_readsBackIf hreach hyear c
  | timestamp day nanos =>
    cases hday
    simp only [Value.WellFormed] at hv
    exact timestamp_readsBackIf hreach hyear hv.2 c
  | timestampTz day nanos offset =>
    cases hday
    simp only [Value.WellFormed] at hv
    exact timestampTz_readsBackIf hreach hyear hv.2.1 hv.2.2 c
  | _ => cases hday

theorem ReadsBackIf.convert {inGrammar : Prop} {v : Value} {c : ConvertContext}
    (h : ReadsBackIf inGrammar v c) (hnull : v.isNull = false) {k : StringKind}
    (hk : v.kind ≠ .string k) (c' : ConvertContext) :
    ∃ t, v.text = .ok t ∧ Datum.convert v (.string k) c' = .ok (.string k t) ∧
      (inGrammar → ∃ w, Datum.convert (.string k t) v.kind c = .ok w ∧ w.equals v = true) ∧
      (¬inGrammar → Datum.convert (.string k t) v.kind c
        = fail (.malformedLiteral (.string k) v.kind t)) := by
  obtain ⟨t, ht, htight, hread, hrefuse⟩ := h
  refine ⟨t, ht, toString_of_isTight hnull hk ht htight c', ?_⟩
  rw [ofString_byRule k t hk c]
  refine ⟨fun hin => hread hin k, fun hout => ?_⟩
  rw [hrefuse hout k]
  rfl

end Convert

/-- A date or timestamp is converted to a string and back to an equal value if its year is at most
the greatest year that is read, and the string is refused if it is not. -/
theorem calendar_text_round_trip {v : Value} {day : Int} (hday : v.epochDay? = some day)
    (hv : v.WellFormed) (hreach : InReach day) (k : StringKind) (c c' : ConvertContext) :
    ∃ year t, InYear day year ∧ v.text = .ok t ∧
      convert v (.string k) c = .ok (.string k t) ∧
      ((year.natAbs : Int) ≤ maxYear →
        ∃ w, convert (.string k t) v.kind c' = .ok w ∧ w.equals v = true) ∧
      (maxYear < (year.natAbs : Int) →
        convert (.string k t) v.kind c' = fail (.malformedLiteral (.string k) v.kind t)) := by
  obtain ⟨d, rfl⟩ := exists_march day
  have hyear := civil_inYear d
  have hnull : v.isNull = false := by
    cases v with
    | null => cases hday
    | _ => rfl
  have hkind : v.kind ≠ .string k := by
    cases v with
    | string j t => cases hday
    | _ => simp
  have hread := Convert.readsBackIf_of_epochDay hday hv hreach hyear c'
  obtain ⟨t, ht, hto, hback, hrefuse⟩ := hread.convert hnull hkind c
  exact ⟨d.civil.year, t, hyear, ht, hto, hback, fun hlt => hrefuse (Int.not_le.2 hlt)⟩

/-- The last nanosecond of a leap day before the year 0, at an offset with seconds. -/
theorem calendar_text_round_trip_of_leap_day :
    ∃ (v : Value) (c : ConvertContext), v.WellFormed ∧ v.epochDay? = some (-720930) ∧
      InReach (-720930) ∧ ∃ t w, convert v (.string .varchar) c = .ok (.string .varchar t) ∧
        convert (.string .varchar t) .timestampTz c = .ok w ∧ w.equals v = true := by
  let v : Value := .timestampTz (-720930 : Int) 86399999999999 (-64799 : Int)
  let c := ConvertContext.ofSession (.system 0 0)
  have hv : v.WellFormed := by
    simp only [v, Value.WellFormed, IsNanos, IsOffset]
    decide
  have hreach : InReach (-720930) := by
    unfold InReach
    decide
  obtain ⟨year, t, hyear, -, hto, hback, -⟩ :=
    calendar_text_round_trip (v := v) rfl hv hreach .varchar c c
  have hin : InYear (-720930) (-4) := by
    unfold InYear
    decide
  obtain rfl := inYear_unique hyear hin
  obtain ⟨w, hw, heq⟩ := hback (by decide)
  exact ⟨v, c, hv, rfl, hreach, t, w, hto, hw, heq⟩

end Datum
