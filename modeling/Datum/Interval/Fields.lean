import Datum.Interval.Qualifier
import Datum.Number.Decimal

/-!
# Interval fields

The sign, leading field and remainder of an interval: their absolute length, their limits, the
number of units of the leading field, and their text.
-/

set_option autoImplicit false

namespace Datum

/-- A sign, the leading field, and the trailing fields combined in their finest unit. -/
structure IntervalFields where
  negative : Bool
  leading : Int
  remainder : Int
  deriving DecidableEq, Inhabited

namespace IntervalFields

def maxLeading : Int := 999999999999999999

/-- The signed length in months or nanoseconds. -/
def toAbsolute (q : Qualifier) (f : IntervalFields) : Int :=
  let magnitude := f.leading * q.leadingUnit + f.remainder * q.remainderUnit
  if f.negative then -magnitude else magnitude

/-- The fields of a signed length; what is finer than the last field is cut off. -/
def ofAbsolute (q : Qualifier) (n : Int) : IntervalFields :=
  let magnitude : Int := n.natAbs
  { negative := n < 0
    leading := magnitude.tdiv q.leadingUnit
    remainder :=
      if q.remainderUnit = 0 then 0 else (magnitude.tmod q.leadingUnit).tdiv q.remainderUnit }

inductive Violation where
  | negativeField
  | leadingTooLong (leading : Int)
  | remainderTooLarge (remainder : Int) (qualifier : Qualifier)

def Violation.message : Violation → Text
  | .negativeField => "interval fields must be non-negative"
  | .leadingTooLong n => ("leading field " : Text) ++ Text.ofInt n ++ (" exceeds 18 digits" : Text)
  | .remainderTooLarge n q =>
    ("remaining field " : Text) ++ Text.ofInt n ++ (" out of range for " : Text) ++ q.name

def violation? (q : Qualifier) (f : IntervalFields) : Option Violation :=
  if f.leading < 0 || f.remainder < 0 then some .negativeField
  else if maxLeading < f.leading then some (.leadingTooLong f.leading)
  else if q.remainderLimit ≤ f.remainder then some (.remainderTooLarge f.remainder q)
  else none

def isZero (f : IntervalFields) : Bool := f.leading == 0 && f.remainder == 0

def unsignedZero (f : IntervalFields) : IntervalFields :=
  if f.isZero then { f with negative := false } else f

def signum (f : IntervalFields) : Int := if f.negative then -1 else if f.isZero then 0 else 1

def toInt (q : Qualifier) (f : IntervalFields) : Int :=
  let up := q.hasRemainder && f.remainder != 0 && q.remainderLimit.tdiv 2 ≤ f.remainder
  let magnitude := if up then f.leading + 1 else f.leading
  if f.negative then -magnitude else magnitude

/-- The leading field and the remainder as a fraction of it, to as many digits as the count of units
of the remainder has. -/
def toDecimal (q : Qualifier) (f : IntervalFields) : Decimal :=
  let magnitude :=
    if q.hasRemainder && f.remainder != 0 then
      let limit := Decimal.ofInt q.remainderLimit
      let fraction := (Decimal.ofInt f.remainder).quotient limit limit.precision .halfDown
      ((Decimal.ofInt f.leading).add fraction).stripTrailingZeros
    else .ofInt f.leading
  if f.negative then magnitude.neg else magnitude

def twoDigits (n : Int) : Text := Text.padZeros 2 (Text.ofInt n)

def seconds (nanos : Int) : Text :=
  let fraction := nanos.tmod nanosPerSecond
  twoDigits (nanos.tdiv nanosPerSecond)
    ++ if fraction = 0 then [] else [Text.unit '.'] ++ Calendar.fractionDigits fraction

def body (q : Qualifier) (f : IntervalFields) : Text :=
  let sign : Text := if f.negative then "-" else []
  let colon := [Text.unit ':']
  let r := f.remainder
  let minuteOfHour := (r.tdiv nanosPerMinute).tmod 60
  sign ++ Text.ofInt f.leading ++ match q with
    | .year | .month | .day | .hour | .minute => []
    | .second =>
      let text := seconds r
      if text = ("00" : Text) then [] else text.drop 2
    | .yearToMonth => [Text.unit '-'] ++ Text.ofInt r
    | .dayToHour => [Text.unit ' '] ++ twoDigits r
    | .dayToMinute => [Text.unit ' '] ++ twoDigits (r.tdiv 60) ++ colon ++ twoDigits (r.tmod 60)
    | .dayToSecond =>
      [Text.unit ' '] ++ twoDigits (r.tdiv nanosPerHour) ++ colon ++ twoDigits minuteOfHour
        ++ colon ++ seconds (r.tmod nanosPerMinute)
    | .hourToMinute => colon ++ twoDigits r
    | .hourToSecond =>
      colon ++ twoDigits (r.tdiv nanosPerMinute) ++ colon ++ seconds (r.tmod nanosPerMinute)
    | .minuteToSecond => colon ++ seconds r

/-- The literal, such as `INTERVAL '-1-6' YEAR TO MONTH`. -/
def literal (q : Qualifier) (f : IntervalFields) : Text :=
  ("INTERVAL '" : Text) ++ f.body q ++ ("' " : Text) ++ q.sql

end IntervalFields

end Datum
