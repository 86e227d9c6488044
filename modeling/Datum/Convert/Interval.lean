import Datum.Convert.Number
import Datum.Interval.Literal

/-!
# Conversion to intervals

An integer counts leading units. A fraction becomes a length where the kind has trailing fields of
its own; elsewhere it is rounded to leading units.
-/

set_option autoImplicit false

namespace Datum.Convert

def ofLeading (q : Qualifier) (n : Int) : Outcome Value := Value.ofFields q ⟨n < 0, n.natAbs, 0⟩

/-- The length of the unit in which fractions count, for the qualifiers that take them. -/
def fractionUnit? : Qualifier → Option Int
  | .yearToMonth => some 12
  | .second => some nanosPerSecond
  | .dayToHour | .dayToMinute | .dayToSecond => some nanosPerDay
  | .hourToMinute | .hourToSecond => some nanosPerHour
  | .minuteToSecond => some nanosPerMinute
  | .year | .month | .day | .hour | .minute => none

def ofFraction (q : Qualifier) (d : Decimal) (unit : Int) : Outcome Value :=
  Value.ofAbsolute q ((d.mul (.ofInt unit)).setScale 0 .halfUp).unscaled

/-- An interval of a decimal or approximate number; `rounded` is its nearest integer. -/
def numberToInterval (v : Value) (q : Qualifier) (rounded : Outcome Int) : Outcome Value := do
  match fractionUnit? q with
  | some unit =>
    match exactDecimal? v with
    | some d => ofFraction q d unit
    | none => unsupported v (.interval q) (← v.text)
  | none => ofLeading q (← rounded)

def intervalToInterval (source : Qualifier) (f : IntervalFields) (q : Qualifier) :
    Outcome Value :=
  if source.isYearMonth = q.isYearMonth then Value.ofAbsolute q (f.toAbsolute source)
  else fail (.dataConversion (.interval source) (.interval q) [])

def parsedInterval? (t : Text) (q : Qualifier) : Option Value := do
  let (named, fields) ← IntervalFields.parse? q t
  match Value.ofFields named fields with
  | .ok (.interval source f) =>
    if source = q then some (.interval source f) else (intervalToInterval source f q).toOption
  | _ => none

def textToInterval (t : Text) (q : Qualifier) : Outcome Value :=
  match parsedInterval? t q with
  | some v => .ok v
  | none => fail (.invalidInterval q t)

def toInterval (v : Value) (q : Qualifier) (column : Text) : Outcome Value :=
  match v with
  | .integer _ n => ofLeading q n.val
  | .numeric d => numberToInterval v q (roundDecimal d column)
  | .float _ x => numberToInterval v q (roundDouble x column)
  | .string _ t => textToInterval t q
  | .interval source f => intervalToInterval source f q
  | v => unsupported v (.interval q) []

end Datum.Convert
