import Datum.Number.Num

/-!
# The calendar

Days are counted from 1970-01-01 in the proleptic Gregorian calendar. A 400-year era has 146097
days; inside an era the year is taken to begin in March, so that the leap day comes last. Every step
is exact as long as its numbers stay within 53 bits and is rounded to 53 bits beyond.
-/

set_option autoImplicit false

namespace Datum

def nanosPerSecond : Int := 1000000000

def nanosPerMinute : Int := 60 * nanosPerSecond

def nanosPerHour : Int := 60 * nanosPerMinute

def nanosPerDay : Int := 24 * nanosPerHour

def secondsPerDay : Int := 86400

def maxOffsetSeconds : Int := 18 * 3600

structure CivilDate where
  year : Int
  month : Int
  day : Int
  deriving DecidableEq

namespace Calendar

open Number

/-- The floor of a quotient that is first rounded to 53 bits. Up to `2 ^ 53` the rounding never
reaches the next integer. -/
def floorQuotient (n : Int) (d : Nat) : Int :=
  if n.natAbs ≤ 0x20000000000000 then n.fdiv d
  else ((Double.ofRatio (n < 0) n.natAbs d).floor?).getD 0

def sum (m n : Int) : Int := round53 (m + n)

def diff (m n : Int) : Int := round53 (m - n)

def times (m n : Int) : Int := round53 (m * n)

def daysOfYears (year : Int) : Int :=
  diff (sum (times year 365) (floorQuotient year 4)) (floorQuotient year 100)

def daysOfMonths (month : Int) : Int := floorQuotient (sum (times 153 month) 2) 5

/-- The day of a date, which need not be a valid one. -/
def dayOfCivil (year month day : Int) : Int :=
  let y := if month ≤ 2 then diff year 1 else year
  let era := floorQuotient y 400
  let yearOfEra := diff y (times era 400)
  let dayOfYear := diff (sum (daysOfMonths ((sum month 9).tmod 12)) day) 1
  let dayOfEra := sum (daysOfYears yearOfEra) dayOfYear
  diff (sum (times era 146097) dayOfEra) 719468

/-- The year of an era to which a day of the era belongs: its leap days are taken out first. -/
def yearOfDay (dayOfEra : Int) : Int :=
  let common := diff (sum (diff dayOfEra (floorQuotient dayOfEra 1460))
    (floorQuotient dayOfEra 36524)) (floorQuotient dayOfEra 146096)
  floorQuotient common 365

def civilOfDay (epochDay : Int) : CivilDate :=
  let z := sum epochDay 719468
  let era := floorQuotient z 146097
  let dayOfEra := diff z (times era 146097)
  let yearOfEra := yearOfDay dayOfEra
  let dayOfYear := diff dayOfEra (daysOfYears yearOfEra)
  let shifted := floorQuotient (sum (times 5 dayOfYear) 2) 153
  let day := sum (diff dayOfYear (daysOfMonths shifted)) 1
  let month := if shifted < 10 then sum shifted 3 else diff shifted 9
  let year := sum (sum yearOfEra (times era 400)) (if month ≤ 2 then 1 else 0)
  ⟨year, month, day⟩

def isLeapYear (year : Int) : Bool :=
  (year.tmod 4 == 0 && year.tmod 100 != 0) || year.tmod 400 == 0

/-- The length of a month; 31 also for a number that names no month. -/
def daysInMonth (year month : Int) : Int :=
  if month = 2 then (if isLeapYear year then 29 else 28)
  else if month = 4 || month = 6 || month = 9 || month = 11 then 30
  else 31

def epochSeconds (epochDay nanos offset : Int) : Int :=
  epochDay * secondsPerDay + nanos.tdiv nanosPerSecond - offset

def dayOfLocalSeconds (seconds : Int) : Int := round53 (seconds.fdiv secondsPerDay)

def nanosOfLocalSeconds (seconds : Int) : Int := seconds.fmod secondsPerDay * nanosPerSecond

def wrapNanos (nanos : Int) : Int := nanos.fmod nanosPerDay

def padded (width : Nat) (n : Int) : Text := Text.padZeros width (Num.int n).text

def formatDate (epochDay : Int) : Text :=
  let date := civilOfDay epochDay
  let year := if date.year < 0 then [Text.unit '-'] ++ padded 4 (-date.year) else padded 4 date.year
  year ++ [Text.unit '-'] ++ padded 2 date.month ++ [Text.unit '-'] ++ padded 2 date.day

def fractionDigits (nanos : Int) : Text :=
  ((Text.padZeros 9 (Text.ofInt nanos)).reverse.dropWhile (· == Text.unit '0')).reverse

def formatTime (nanos : Int) : Text :=
  let seconds := round53 (nanos.tdiv nanosPerSecond)
  let fraction := nanos.tmod nanosPerSecond
  let colon := [Text.unit ':']
  padded 2 (floorQuotient seconds 3600) ++ colon
    ++ padded 2 ((floorQuotient seconds 60).tmod 60) ++ colon
    ++ padded 2 (seconds.tmod 60)
    ++ if fraction = 0 then [] else [Text.unit '.'] ++ fractionDigits fraction

/-- A sign and hours; minutes and seconds only as far as they are needed. -/
def formatOffset (offset : Int) : Text :=
  let sign : Text := if offset < 0 then "-" else "+"
  let magnitude : Int := offset.natAbs
  let colon := [Text.unit ':']
  let minutes := (floorQuotient magnitude 60).tmod 60
  let seconds := magnitude.tmod 60
  sign ++ padded 2 (floorQuotient magnitude 3600)
    ++ if minutes = 0 && seconds = 0 then []
      else colon ++ padded 2 minutes ++ if seconds = 0 then [] else colon ++ padded 2 seconds

/-- The same layout for an offset that is no integer of seconds. -/
def formatFractionalOffset (offset : Double) : Text :=
  match offset with
  | .nan => "+NaN:NaN:NaN"
  | .number negative magnitude =>
    let sign : Text := if negative && magnitude.val != 0 then "-" else "+"
    if magnitude.val = Double.top then sign ++ ("Infinity:NaN:NaN" : Text)
    else
      let (num, den) := Double.ratio magnitude.val
      let units (size : Nat) : Int := ((Double.ofRatio false num (den * size)).floor?).getD 0
      let colon := [Text.unit ':']
      let minutes := (units 60).tmod 60
      let seconds := Double.ofRatio false (num % (60 * den)) den
      sign ++ padded 2 (units 3600)
        ++ if minutes = 0 && seconds.isZero then []
          else colon ++ padded 2 minutes
            ++ if seconds.isZero then [] else colon ++ Text.padZeros 2 seconds.text

end Calendar

def CivilDate.isValid (d : CivilDate) : Bool :=
  1 ≤ d.month && d.month ≤ 12 && 1 ≤ d.day && d.day ≤ Calendar.daysInMonth d.year d.month

def CivilDate.toDay? (d : CivilDate) : Option Int :=
  if d.isValid then some (Calendar.dayOfCivil d.year d.month d.day) else none

end Datum
