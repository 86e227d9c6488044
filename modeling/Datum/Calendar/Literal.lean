import Datum.Calendar

/-!
# Date, time and offset literals

Readers of dates, times of day, offsets, and times and timestamps with an optional offset. Each
reader of a part returns what follows it.
-/

set_option autoImplicit false

namespace Datum.Calendar

open Text (unit spanDigits digitsValue)

def expect? (u : UInt16) : Text → Option Text
  | [] => none
  | v :: rest => if v = u then some rest else none

/-- All digits that come next, if their count lies between `least` and `most`. -/
def digitRun? (least most : Nat) (t : Text) : Option (Text × Text) :=
  let (digits, rest) := spanDigits t
  if least ≤ digits.length && digits.length ≤ most then some (digits, rest) else none

def twoDigits? : Text → Option (Int × Text)
  | u :: v :: rest =>
    if Text.isDigit u && Text.isDigit v then some (digitsValue [u, v], rest) else none
  | _ => none

def datePart? (t : Text) : Option (CivilDate × Text) := do
  let (negative, body) := Text.takeSign t
  let (year, rest) ← digitRun? 1 9 body
  let (month, rest) ← digitRun? 1 2 (← expect? (unit '-') rest)
  let (day, rest) ← digitRun? 1 2 (← expect? (unit '-') rest)
  let magnitude : Int := digitsValue year
  return (⟨if negative then -magnitude else magnitude, digitsValue month, digitsValue day⟩, rest)

/-- Reads `YYYY-MM-DD`. -/
def parseDate? (t : Text) : Option Int := do
  let (date, rest) ← datePart? t
  if rest.isEmpty then date.toDay? else none

structure Clock where
  hour : Int
  minute : Int
  second : Int
  nano : Int

def fractionPart? : Text → Option (Int × Text)
  | [] => some (0, [])
  | u :: rest =>
    if u = unit '.' then do
      let (digits, rest) ← digitRun? 1 9 rest
      return (digitsValue (digits ++ List.replicate (9 - digits.length) (unit '0')), rest)
    else some (0, u :: rest)

def secondPart? : Text → Option (Int × Int × Text)
  | [] => some (0, 0, [])
  | u :: rest =>
    if u = unit ':' then do
      let (second, rest) ← twoDigits? rest
      let (nano, rest) ← fractionPart? rest
      return (second, nano, rest)
    else some (0, 0, u :: rest)

def timePart? (t : Text) : Option (Clock × Text) := do
  let (hour, rest) ← digitRun? 1 2 t
  let (minute, rest) ← twoDigits? (← expect? (unit ':') rest)
  let (second, nano, rest) ← secondPart? rest
  return (⟨digitsValue hour, minute, second, nano⟩, rest)

def Clock.toNanos? (c : Clock) : Option Int :=
  if 23 < c.hour || 59 < c.minute || 59 < c.second then none
  else some (c.hour * nanosPerHour + c.minute * nanosPerMinute + c.second * nanosPerSecond + c.nano)

/-- Reads `HH:MM[:SS[.fffffffff]]`. -/
def parseTime? (t : Text) : Option Int := do
  let (clock, rest) ← timePart? t
  if rest.isEmpty then clock.toNanos? else none

def sexagesimal? (t : Text) : Option (Int × Text) :=
  twoDigits? (match t with
    | [] => []
    | u :: rest => if u = unit ':' then rest else u :: rest)

def offsetTail? (t : Text) : Option (Int × Int) :=
  if t.isEmpty then some (0, 0)
  else do
    let (minutes, rest) ← sexagesimal? t
    if rest.isEmpty then return (minutes, 0)
    let (seconds, rest) ← sexagesimal? rest
    if rest.isEmpty then return (minutes, seconds) else none

/-- Hours, minutes and seconds of an offset. Two digits of hours are tried before one. -/
def offsetFields? : Text → Option (Int × Int × Int)
  | [] => none
  | [u] => if Text.isDigit u then some (digitsValue [u], 0, 0) else none
  | u :: v :: rest =>
    if !Text.isDigit u then none
    else
      let wide :=
        if Text.isDigit v then
          (offsetTail? rest).map fun (m, s) => (digitsValue [u, v], m, s)
        else none
      match wide with
      | some (h, m, s) => some (h, m, s)
      | none => (offsetTail? (v :: rest)).map fun (m, s) => (digitsValue [u], m, s)

def isUtcWord (t : Text) : Bool :=
  Text.asciiUpper t == ("Z" : Text) || Text.asciiUpper t == ("UTC" : Text)

/-- Reads `Z`, `UTC` or a sign with `HH[[:]MM[[:]SS]]`, up to 18 hours. -/
def parseOffset? (t : Text) : Option Int :=
  if isUtcWord t then some 0
  else match t with
    | [] => none
    | u :: rest =>
      if u = unit '+' || u = unit '-' then do
        let (hours, minutes, seconds) ← offsetFields? rest
        if 59 < minutes || 59 < seconds then none
        else
          let total := hours * 3600 + minutes * 60 + seconds
          if maxOffsetSeconds < total then none
          else some (if u = unit '-' then -total else total)
      else none

def offsetAtEnd? (t : Text) : Option (Option Int) :=
  let rest := t.dropWhile Text.isBlank
  if rest.isEmpty then some none else (parseOffset? rest).map some

structure TimeLiteral where
  nanos : Int
  offset : Option Int
  deriving DecidableEq

structure TimestampLiteral where
  epochDay : Int
  nanos : Int
  offset : Option Int
  deriving DecidableEq

/-- Reads `HH:MM[:SS[.f]][offset]`. -/
def parseTimeLiteral? (t : Text) : Option TimeLiteral := do
  let (clock, rest) ← timePart? t
  let offset ← offsetAtEnd? rest
  return ⟨← clock.toNanos?, offset⟩

/-- A time at the beginning after one space or a `T`; midnight if there is none. -/
def timeAfterDate (t : Text) : Clock × Text :=
  let midnight : Clock := ⟨0, 0, 0, 0⟩
  match t with
  | [] => (midnight, [])
  | u :: rest =>
    if u = unit ' ' || u = unit 'T' || u = unit 't' then (timePart? rest).getD (midnight, u :: rest)
    else (midnight, u :: rest)

/-- Reads `YYYY-MM-DD[( |T)HH:MM[:SS[.f]]][offset]`. -/
def parseTimestampLiteral? (t : Text) : Option TimestampLiteral := do
  let (date, rest) ← datePart? t
  let (clock, rest) := timeAfterDate rest
  let offset ← offsetAtEnd? rest
  return ⟨← date.toDay?, ← clock.toNanos?, offset⟩

end Datum.Calendar
