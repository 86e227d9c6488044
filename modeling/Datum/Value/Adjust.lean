import Datum.Value.Describe
import Datum.Value.Make

/-!
# Fitting values into columns

Values are rounded to a scale and cut to a precision. Scales and precisions are numbers that callers
give, so that they may be fractions or NaN.
-/

set_option autoImplicit false

namespace Datum.Value

def checkScale (n : Num) : Outcome Nat :=
  match n.toInt? with
  | some (.ofNat scale) => .ok scale
  | _ => fail (.invalidValue "scale" n.text)

def fractionUnit (scale : Nat) : Int := (Nat.pow 10 (9 - scale) : Nat)

def roundNanos (nanos : Int) (scale : Nat) : Int :=
  let unit := fractionUnit scale
  let rest := nanos.tmod unit
  let base := nanos - rest
  if unit ≤ rest * 2 then base + unit else base

/-- A time that rounds to midnight stays the last one of the day. -/
def roundTime (nanos : Int) (scale : Nat) : Int :=
  let rounded := roundNanos nanos scale
  if nanosPerDay ≤ rounded then nanosPerDay - fractionUnit scale else rounded

/-- A timestamp that rounds to midnight goes on to the next day. -/
def roundDayTime (day : Whole) (nanos : Int) (scale : Nat) : Whole × Int :=
  let rounded := roundNanos nanos scale
  if nanosPerDay ≤ rounded then (.int (day.val + 1), rounded - nanosPerDay) else (day, rounded)

def decimalToScale (d : Decimal) (onlySmaller : Bool) (scale : Nat) : Outcome Decimal :=
  if d.scale = scale || (onlySmaller && d.scale < scale) then .ok d else d.rescale scale .halfUp

/-- Adjusts the count of fractional digits. Kinds without fractions are left as they are, and times
are only made coarser. -/
def toScale (v : Value) (onlySmaller : Bool) (n : Num) : Outcome Value := do
  match v with
  | .numeric d => return .numeric (← decimalToScale d onlySmaller (← checkScale n))
  | .time nanos =>
    let scale ← checkScale n
    if 9 ≤ scale then return v else ofTime (roundTime nanos scale)
  | .timeTz nanos offset =>
    let scale ← checkScale n
    if 9 ≤ scale then return v else ofTimeTz (roundTime nanos scale) offset.toNum
  | .timestamp day nanos =>
    let scale ← checkScale n
    if 9 ≤ scale then return v
    else
      let (newDay, rounded) := roundDayTime day nanos scale
      if newDay = day && rounded = nanos then return v
      else ofTimestamp newDay.toNum rounded
  | .timestampTz day nanos offset =>
    let scale ← checkScale n
    if 9 ≤ scale then return v
    else
      let (newDay, rounded) := roundDayTime day nanos scale
      if newDay = day && rounded = nanos then return v
      else ofTimestampTz newDay.toNum rounded offset.toNum
  | v => return v

def decimalFits (d : Decimal) (precision : Num) : Bool :=
  precision.atLeast (max d.precision d.scale : Nat)

/-- A decimal that does not fit, with as many fractional digits as the precision leaves. The digits
before the point are never cut. -/
def decimalToPrecision (d : Decimal) (precision : Num) : Outcome Decimal :=
  let integral : Nat := d.precision - d.scale
  match precision.toInt? with
  | some p =>
    if p < integral then fail (.numericOverflow d.text [])
    else
      let rounded := d.setScale (p - integral) .halfUp
      if decimalFits rounded precision then .ok rounded else fail (.numericOverflow d.text [])
  | none =>
    if precision.toDouble.isNaN || precision.atLeast integral then .error .notAnInteger
    else fail (.numericOverflow d.text [])

/-- The length of what a precision leaves of `length` items. A negative precision counts from the
end, and NaN leaves nothing. -/
def keptLength (length : Nat) (precision : Num) : Nat :=
  let fromEnd (n : Int) : Nat := if n < 0 then (length + n).toNat else min n.toNat length
  match precision with
  | .int n => fromEnd n
  | .real x _ =>
    match x.trunc? with
    | some n => fromEnd n
    | none => if x = Double.infinity then length else 0

def toPrecision (v : Value) (precision : Num) : Outcome Value := do
  match v with
  | .numeric d =>
    if decimalFits d precision then return v
    else return .numeric (← decimalToPrecision d precision)
  | .varbinary data =>
    if precision.atLeast data.length then return v
    else return .varbinary (data.take (keptLength data.length precision))
  | .string k t =>
    if precision.atLeast t.length then return v
    else return .ofText k (t.take (keptLength t.length precision))
  | .array items =>
    if precision.atLeast items.length then return v
    else return .array (items.take (keptLength items.length precision))
  | v => return v

end Datum.Value
