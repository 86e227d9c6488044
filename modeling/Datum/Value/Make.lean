import Datum.Json.Document
import Datum.Value

/-!
# Checked construction of values

The ways by which values come into being from numbers, texts and bytes. Numbers that callers give
may be fractions, infinities or NaN; what cannot be stored is refused.
-/

set_option autoImplicit false

namespace Datum.Value

def ofNarrowNumber (k : IntegerKind) (n : Num) : Outcome Value :=
  match Whole.ofNum? n with
  | some whole =>
    if k.holds whole.val then .ok (.integer k whole) else fail (.numericOverflow n.text [])
  | none => fail (.numericOverflow n.text [])

def ofBigint (n : Int) : Outcome Value :=
  if IntegerKind.bigint.holds n then .ok (.integer .bigint n)
  else fail (.numericOverflow (Text.ofInt n) [])

def ofBigintNumber (n : Num) : Outcome Value :=
  match n.toInt? with
  | some i => if Num.isSafe i then .ok (.integer .bigint i) else fail (.numericOverflow n.text [])
  | none => fail (.numericOverflow n.text [])

def ofInteger (k : IntegerKind) (n : Int) : Outcome Value :=
  if k.holds n then .ok (.integer k n) else fail (.numericOverflow (Text.ofInt n) [])

def ofDouble (k : FloatKind) (x : Double) : Value :=
  match k with
  | .real => .float .real x.toSingle
  | .double => .float .double x

def checkDay (day : Num) : Outcome Whole :=
  match Whole.ofNum? day with
  | some d => if Num.isSafe d.val then .ok d else fail (.invalidValue "epoch day" day.text)
  | none => fail (.invalidValue "epoch day" day.text)

def checkNanos (nanos : Int) : Outcome Int :=
  if 0 ≤ nanos && nanos < nanosPerDay then .ok nanos
  else fail (.invalidValue "nanos of day" (Text.ofInt nanos))

def checkOffset (offset : Num) : Outcome Whole :=
  match Whole.ofNum? offset with
  | some o =>
    if (o.val.natAbs : Int) ≤ maxOffsetSeconds then .ok o
    else fail (.invalidValue "time zone offset" offset.text)
  | none => fail (.invalidValue "time zone offset" offset.text)

def ofDay (day : Num) : Outcome Value := do return .date (← checkDay day)

/-- The date of a year, month and day, which are not checked by themselves. -/
def ofCivil (year month day : Int) : Outcome Value :=
  ofDay (.int (Calendar.dayOfCivil year month day))

def ofTime (nanos : Int) : Outcome Value := do return .time (← checkNanos nanos)

def ofTimeTz (nanos : Int) (offset : Num) : Outcome Value := do
  let nanos ← checkNanos nanos
  return .timeTz nanos (← checkOffset offset)

def ofTimestamp (day : Num) (nanos : Int) : Outcome Value := do
  let day ← checkDay day
  return .timestamp day (← checkNanos nanos)

def ofTimestampTz (day : Num) (nanos : Int) (offset : Num) : Outcome Value := do
  let day ← checkDay day
  let nanos ← checkNanos nanos
  return .timestampTz day nanos (← checkOffset offset)

def exactInt (n : Num) : Outcome Int :=
  match n.toInt? with
  | some i => .ok i
  | none => .error .notAnInteger

def exactFloor (n : Num) : Outcome Int :=
  match n with
  | .int i => .ok i
  | .real x _ =>
    match x.floor? with
    | some i => .ok i
    | none => .error .notAnInteger

def ofEpochMillis (millis offset : Num) : Outcome Value := do
  let ms ← exactFloor millis
  let wall := ms.fdiv 1000 + (← exactInt offset)
  ofTimestampTz (.int (Calendar.dayOfLocalSeconds wall))
    (Calendar.nanosOfLocalSeconds wall + ms.fmod 1000 * 1000000) offset

def ofText (k : StringKind) (t : Text) : Value :=
  match k with
  | .char => .string .char t.dropTrailingSpaces
  | k => .string k t

def ofJsonBytes (data : Bytes) : Outcome Value :=
  let t := Text.Utf8.decode data
  if Json.isValid t then .ok (.json data) else fail (.invalidValue "JSON" t)

def ofJsonText (t : Text) : Outcome Value := ofJsonBytes (Text.Utf8.encode t)

def jsonLiteral (t : Text) : Value := .json (Text.Utf8.encode t)

def jsonBoolean (b : Bool) : Value := jsonLiteral (if b then "true" else "false")

def jsonString (t : Text) : Value := jsonLiteral (Json.quote t)

/-- A JSON value of a number's text, which is no document for NaN and the infinities. -/
def jsonNumber (n : Num) : Value := jsonLiteral n.text

def jsonInteger (n : Int) : Value := jsonLiteral (Text.ofInt n)

def jsonDecimal (d : Decimal) : Value := jsonLiteral d.text

def ofFields (q : Qualifier) (f : IntervalFields) : Outcome Value :=
  if IntervalFields.maxLeading < f.leading then
    fail (.numericOverflow ((if f.negative then ("-" : Text) else []) ++ Text.ofInt f.leading) [])
  else
    match f.violation? q with
    | some violation => fail (.invalidValue q.name violation.message)
    | none => .ok (.interval q f.unsignedZero)

def ofAbsolute (q : Qualifier) (n : Int) : Outcome Value := ofFields q (.ofAbsolute q n)

end Datum.Value
