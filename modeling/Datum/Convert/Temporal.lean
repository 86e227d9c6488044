import Datum.Calendar.Literal
import Datum.Session

/-!
# Conversion to dates and times

Instants are shifted into the zone of the session; what lacks a date or an offset takes it from the
session.
-/

set_option autoImplicit false

namespace Datum.Convert

open Calendar

def localSeconds (day : Whole) (nanos : Int) (offset : Whole) (s : Session) : Outcome Int := do
  let seconds := epochSeconds day.val nanos offset.val
  return seconds + (← Value.exactInt (s.zone.atInstant seconds))

def shiftedNanos (nanos : Int) (offset : Whole) (s : Session) : Int :=
  wrapNanos (nanos + (s.now.offset.val - offset.val) * nanosPerSecond)

def toDate (v : Value) (s : Session) : Outcome Value := do
  match v with
  | .timestamp day _ => Value.ofDay day.toNum
  | .timestampTz day nanos offset =>
    Value.ofDay (.int (dayOfLocalSeconds (← localSeconds day nanos offset s)))
  | .time _ | .timeTz _ _ | .enum _ => unsupported v .date []
  | v =>
    match parseDate? (← v.text).trim with
    | some day => Value.ofDay (.int day)
    | none => malformed v .date

def toTime (v : Value) (s : Session) : Outcome Value := do
  match v with
  | .timeTz nanos offset => Value.ofTime (shiftedNanos nanos offset s)
  | .timestamp _ nanos => Value.ofTime nanos
  | .timestampTz day nanos offset =>
    let seconds ← localSeconds day nanos offset s
    Value.ofTime (nanosOfLocalSeconds seconds + nanos.tmod nanosPerSecond)
  | .date _ | .enum _ => unsupported v .time []
  | v =>
    match parseTime? (← v.text).trim with
    | some nanos => Value.ofTime nanos
    | none => malformed v .time

def toTimeTz (v : Value) (s : Session) : Outcome Value := do
  match v with
  | .time nanos => Value.ofTimeTz nanos s.now.offset.toNum
  | .timestamp day nanos => Value.ofTimeTz nanos (s.zone.atLocal day.val nanos)
  | .timestampTz _ nanos offset => Value.ofTimeTz nanos offset.toNum
  | .date _ | .enum _ => unsupported v .timeTz []
  | v =>
    match parseTimeLiteral? (← v.text).trim with
    | some l => Value.ofTimeTz l.nanos ((l.offset.map .int).getD s.now.offset.toNum)
    | none => malformed v .timeTz

def instantToTimestamp (day : Whole) (nanos : Int) (offset : Whole) (s : Session) :
    Outcome Value := do
  let seconds ← localSeconds day nanos offset s
  Value.ofTimestamp (.int (dayOfLocalSeconds seconds))
    (nanosOfLocalSeconds seconds + nanos.tmod nanosPerSecond)

def toTimestamp (v : Value) (s : Session) : Outcome Value := do
  match v with
  | .time nanos => Value.ofTimestamp s.now.day.toNum nanos
  | .timeTz nanos offset => Value.ofTimestamp s.now.day.toNum (shiftedNanos nanos offset s)
  | .date day => Value.ofTimestamp day.toNum 0
  | .timestampTz day nanos offset => instantToTimestamp day nanos offset s
  | .enum _ => unsupported v .timestamp []
  | v =>
    match parseTimestampLiteral? (← v.text).trim with
    | none => malformed v .timestamp
    | some l =>
      match l.offset with
      | none => Value.ofTimestamp (.int l.epochDay) l.nanos
      | some offset => do
        let _ ← Value.ofTimestampTz (.int l.epochDay) l.nanos (.int offset)
        instantToTimestamp l.epochDay l.nanos offset s

def zoned (day : Whole) (nanos : Int) (s : Session) : Outcome Value :=
  Value.ofTimestampTz day.toNum nanos (s.zone.atLocal day.val nanos)

def toTimestampTz (v : Value) (s : Session) : Outcome Value := do
  match v with
  | .time nanos => zoned s.now.day nanos s
  | .timeTz nanos offset => Value.ofTimestampTz s.now.day.toNum nanos offset.toNum
  | .date day => zoned day 0 s
  | .timestamp day nanos => zoned day nanos s
  | .enum _ => unsupported v .timestampTz []
  | v =>
    match parseTimestampLiteral? (← v.text).trim with
    | none => malformed v .timestampTz
    | some l =>
      match l.offset with
      | some offset => Value.ofTimestampTz (.int l.epochDay) l.nanos (.int offset)
      | none => zoned l.epochDay l.nanos s

end Datum.Convert
