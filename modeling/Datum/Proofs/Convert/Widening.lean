import Datum.Proofs.Convert.Zones
import Mathlib.Data.Int.ModEq

/-!
# Widening a time and projecting it back

A time, a date or a time with an offset gets from the session what it lacks, a day or an offset, and
gives it up again on the way back. A time with an offset is shifted once, whatever the way to a
local time, and a timestamp literal that names an offset becomes local by way of its instant.
-/

set_option autoImplicit false

namespace Datum

open Calendar

def ZonedTime.value (t : ZonedTime) : Value := .timestampTz t.day t.nanos t.offset

namespace Value

variable {day offset : Whole} {nanos : Int}

theorem ofDay_toNum (h : (date day).WellFormed) : ofDay day.toNum = .ok (.date day) := by
  rw [ofDay, checkDay_eq_ok.2 ⟨day.ofNum?_toNum, h⟩]
  rfl

theorem ofTimeTz_toNum (h : (timeTz nanos offset).WellFormed) :
    ofTimeTz nanos offset.toNum = .ok (.timeTz nanos offset) := by
  rw [ofTimeTz, checkNanos_of_isNanos h.1, checkOffset_eq_ok.2 ⟨offset.ofNum?_toNum, h.2⟩]
  rfl

theorem ofTimestamp_toNum (h : (timestamp day nanos).WellFormed) :
    ofTimestamp day.toNum nanos = .ok (.timestamp day nanos) :=
  ofTimestamp_eq_ok.2 ⟨day, day.ofNum?_toNum, h, rfl⟩

theorem ofTimestampTz_toNum (h : (timestampTz day nanos offset).WellFormed) :
    ofTimestampTz day.toNum nanos offset.toNum = .ok (.timestampTz day nanos offset) :=
  ofTimestampTz_eq_ok.2 ⟨day, offset, day.ofNum?_toNum, offset.ofNum?_toNum, h, rfl⟩

end Value

namespace Convert

open Value

def through (v : Value) (middle target : Kind) (c : ConvertContext) : Outcome Value := do
  convert (← convert v middle c) target c

variable {c : ConvertContext} {v w : Value} {middle target : Kind} {day offset : Whole}
  {nanos : Int}

theorem through_of_eq_ok (h : convert v middle c = .ok w) :
    through v middle target c = convert w target c := by
  rw [through, h, ok_bind]

theorem toTime_timestamp (h : IsNanos nanos) :
    convert (.timestamp day nanos) .time c = .ok (.time nanos) := by
  rw [convert_eq_byRule rfl (by simp)]
  exact ofTime_of_isNanos h

theorem shiftedNanos_eq (nanos : Int) (offset : Whole) (s : Session) :
    shiftedNanos nanos offset s =
      (nanos + (s.now.offset.val - offset.val) * nanosPerSecond) % nanosPerDay :=
  Int.fmod_eq_emod_of_nonneg _ (by decide)

theorem isNanos_shiftedNanos (nanos : Int) (offset : Whole) (s : Session) :
    IsNanos (shiftedNanos nanos offset s) := by
  rw [shiftedNanos_eq]
  exact isNanos_mod _

theorem shiftedNanos_session (h : IsNanos nanos) (s : Session) :
    shiftedNanos nanos s.now.offset s = nanos := by
  rw [shiftedNanos_eq, Int.sub_self, Int.zero_mul, Int.add_zero]
  exact Int.emod_eq_of_lt h.1 h.2

theorem toTime_timeTz :
    convert (.timeTz nanos offset) .time c = .ok (.time (shiftedNanos nanos offset c.session)) := by
  rw [convert_eq_byRule rfl (by simp)]
  exact ofTime_of_isNanos (isNanos_shiftedNanos _ _ _)

theorem toTimeTz_timestampTz (h : (timeTz nanos offset).WellFormed) :
    convert (.timestampTz day nanos offset) .timeTz c = .ok (.timeTz nanos offset) := by
  rw [convert_eq_byRule rfl (by simp)]
  exact ofTimeTz_toNum h

theorem toTimestamp_date (h : (date day).WellFormed) :
    convert (.date day) .timestamp c = .ok (.timestamp day 0) := by
  rw [convert_eq_byRule rfl (by simp)]
  exact ofTimestamp_toNum ⟨h, by decide⟩

theorem toDate_timestamp (h : (date day).WellFormed) :
    convert (.timestamp day nanos) .date c = .ok (.date day) := by
  rw [convert_eq_byRule rfl (by simp)]
  exact ofDay_toNum h

section Session

variable (hnow : c.session.now.value.WellFormed)

include hnow

theorem toTimeTz_time (h : IsNanos nanos) :
    convert (.time nanos) .timeTz c = .ok (.timeTz nanos c.session.now.offset) := by
  rw [convert_eq_byRule rfl (by simp)]
  exact ofTimeTz_toNum ⟨h, hnow.2.2⟩

theorem toTimestamp_time (h : IsNanos nanos) :
    convert (.time nanos) .timestamp c = .ok (.timestamp c.session.now.day nanos) := by
  rw [convert_eq_byRule rfl (by simp)]
  exact ofTimestamp_toNum ⟨hnow.1, h⟩

theorem toTimestamp_timeTz : convert (.timeTz nanos offset) .timestamp c =
    .ok (.timestamp c.session.now.day (shiftedNanos nanos offset c.session)) := by
  rw [convert_eq_byRule rfl (by simp)]
  exact ofTimestamp_toNum ⟨hnow.1, isNanos_shiftedNanos _ _ _⟩

theorem toTimestampTz_timeTz (h : (timeTz nanos offset).WellFormed) :
    convert (.timeTz nanos offset) .timestampTz c =
      .ok (.timestampTz c.session.now.day nanos offset) := by
  rw [convert_eq_byRule rfl (by simp)]
  exact ofTimestampTz_toNum ⟨hnow.1, h.1, h.2⟩

end Session

/-- The literal is checked as an instant before it becomes local, which is the first of the two
conversions on the way through the instant. -/
theorem toTimestamp_literal {k : StringKind} {t : Text} {l : TimestampLiteral} {o : Int}
    (hl : parseTimestampLiteral? t.trim = some l) (ho : l.offset = some o) :
    convert (.string k t) .timestamp c = through (.string k t) .timestampTz .timestamp c := by
  have htext : (string k t).text = .ok t := rfl
  rw [through, convert_eq_byRule rfl (by simp), convert_eq_byRule rfl (by simp)]
  simp only [byRule, toTimestamp, toTimestampTz, htext, ok_bind, hl, ho]
  cases hw : ofTimestampTz (.int l.epochDay) l.nanos (.int o) with
  | error f => rfl
  | ok w =>
    obtain ⟨d, p, hd, hp, -, rfl⟩ := ofTimestampTz_eq_ok.1 hw
    cases hd
    cases hp
    rw [ok_bind, ok_bind, convert_eq_byRule rfl (by simp)]
    rfl

/-- In every session whose current time is a value. A time is kept by the ways through a time with
an offset and through a timestamp, a date by that through a timestamp, and a time with an offset by
that through an instant. A time with an offset becomes the same local time directly and by way of a
timestamp, shifted by the difference of the offsets within the day. Texts with an offset become
timestamps as their instants do. -/
theorem temporal_widening (hnow : c.session.now.value.WellFormed) :
    (∀ v : Value, v.WellFormed →
      (v.kind = .time →
        through v .timeTz .time c = .ok v ∧ through v .timestamp .time c = .ok v) ∧
      (v.kind = .date → through v .timestamp .date c = .ok v) ∧
      (v.kind = .timeTz → through v .timestampTz .timeTz c = .ok v ∧
        through v .timestamp .time c = convert v .time c)) ∧
    (∀ nanos offset, ∃ n, convert (.timeTz nanos offset) .time c = .ok (.time n) ∧ IsNanos n ∧
      n ≡ nanos + (c.session.now.offset.val - offset.val) * nanosPerSecond [ZMOD nanosPerDay]) ∧
    ∀ k t l o, parseTimestampLiteral? t.trim = some l → l.offset = some o →
      convert (.string k t) .timestamp c = through (.string k t) .timestampTz .timestamp c := by
  refine ⟨fun v hv => ?_, fun nanos offset => ?_, fun k t l o hl ho => toTimestamp_literal hl ho⟩
  · cases v with
    | time nanos =>
      refine ⟨fun _ => ⟨?_, ?_⟩, fun h => (by cases h), fun h => (by cases h)⟩
      · rw [through_of_eq_ok (toTimeTz_time hnow hv), toTime_timeTz, shiftedNanos_session hv]
      · rw [through_of_eq_ok (toTimestamp_time hnow hv), toTime_timestamp hv]
    | date day =>
      refine ⟨fun h => (by cases h), fun _ => ?_, fun h => (by cases h)⟩
      rw [through_of_eq_ok (toTimestamp_date hv), toDate_timestamp hv]
    | timeTz nanos offset =>
      refine ⟨fun h => (by cases h), fun h => (by cases h), fun _ => ⟨?_, ?_⟩⟩
      · rw [through_of_eq_ok (toTimestampTz_timeTz hnow hv), toTimeTz_timestampTz hv]
      · rw [through_of_eq_ok (toTimestamp_timeTz hnow), toTime_timeTz,
          toTime_timestamp (isNanos_shiftedNanos _ _ _)]
    | _ => exact ⟨fun h => (by cases h), fun h => (by cases h), fun h => (by cases h)⟩
  · refine ⟨_, toTime_timeTz, isNanos_shiftedNanos _ _ _, ?_⟩
    rw [shiftedNanos_eq]
    exact Int.mod_modEq _ _

theorem temporal_widening_past_midnight : ∃ (c : ConvertContext) (v : Value) (t : Text) (n : Int),
    c.session.now.value.WellFormed ∧ v.WellFormed ∧ v.kind = .timeTz ∧
      through v .timestampTz .timeTz c = .ok v ∧ through v .timestamp .time c = convert v .time c ∧
      convert v .time c = .ok (.time n) ∧ IsNanos n ∧
      convert (.string .varchar t) .timestamp c =
        through (.string .varchar t) .timestampTz .timestamp c := by
  let c : ConvertContext := .ofSession (.atOffset ⟨.int 0, 0, .int 64800⟩)
  let v : Value := .timeTz 82800000000001 (.int (-64800))
  let t : Text := "2024-02-29 23:30:00-01"
  have hnow : c.session.now.value.WellFormed := ⟨by decide, by decide, by decide⟩
  have hv : v.WellFormed := ⟨by decide, by decide⟩
  obtain ⟨hback, hlocal, hliteral⟩ := temporal_widening (c := c) hnow
  obtain ⟨-, -, hzoned⟩ := hback v hv
  obtain ⟨htz, htime⟩ := hzoned rfl
  obtain ⟨n, hn, hnanos, -⟩ := hlocal 82800000000001 (.int (-64800))
  exact ⟨c, v, t, n, hnow, hv, rfl, htz, htime, hn, hnanos, hliteral .varchar t _ _ rfl rfl⟩

end Convert

end Datum
