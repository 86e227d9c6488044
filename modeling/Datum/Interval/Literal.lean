import Datum.Calendar.Literal
import Datum.Interval.Fields

/-!
# Interval literals

Reads a bare body such as `1-6` under a given qualifier, or a full literal such as
`INTERVAL -'1-6' YEAR TO MONTH`, which names its own.
-/

set_option autoImplicit false

namespace Datum.IntervalFields

open Calendar (expect? digitRun?)
open Text (unit spanDigits digitsValue)

def number? (t : Text) : Option (Int × Text) :=
  let (digits, rest) := spanDigits t
  if digits.isEmpty then none else some (digitsValue digits, rest)

def spaces? (t : Text) : Option Text := do
  let rest ← expect? (unit ' ') t
  return rest.dropWhile (· == unit ' ')

def lastNumber? (t : Text) : Option Int := do
  let (n, rest) ← number? t
  if rest.isEmpty then some n else none

def lastSeconds? (t : Text) : Option (Int × Int) := do
  let (n, rest) ← number? t
  let (nanos, rest) ← Calendar.fractionPart? rest
  if rest.isEmpty then some (n, nanos) else none

/-- The leading field and remainder of an unsigned body, its trailing fields checked only where they
are combined. -/
def magnitudes? (q : Qualifier) (t : Text) : Option (Int × Int) :=
  match q with
  | .year | .month | .day | .hour | .minute => do return (← lastNumber? t, 0)
  | .second => lastSeconds? t
  | .yearToMonth => do
    let (years, rest) ← number? t
    return (years, ← lastNumber? (← expect? (unit '-') rest))
  | .dayToHour => do
    let (days, rest) ← number? t
    return (days, ← lastNumber? (← spaces? rest))
  | .dayToMinute => do
    let (days, rest) ← number? t
    let (hours, rest) ← number? (← spaces? rest)
    let minutes ← lastNumber? (← expect? (unit ':') rest)
    if 60 ≤ minutes then none else return (days, hours * 60 + minutes)
  | .dayToSecond => do
    let (days, rest) ← number? t
    let (hours, rest) ← number? (← spaces? rest)
    let (minutes, rest) ← number? (← expect? (unit ':') rest)
    let (seconds, nanos) ← lastSeconds? (← expect? (unit ':') rest)
    if 24 ≤ hours || 60 ≤ minutes || 60 ≤ seconds then none
    else return (days, hours * nanosPerHour + minutes * nanosPerMinute + seconds * nanosPerSecond
      + nanos)
  | .hourToMinute => do
    let (hours, rest) ← number? t
    return (hours, ← lastNumber? (← expect? (unit ':') rest))
  | .hourToSecond => do
    let (hours, rest) ← number? t
    let (minutes, rest) ← number? (← expect? (unit ':') rest)
    let (seconds, nanos) ← lastSeconds? (← expect? (unit ':') rest)
    if 60 ≤ minutes || 60 ≤ seconds then none
    else return (hours, minutes * nanosPerMinute + seconds * nanosPerSecond + nanos)
  | .minuteToSecond => do
    let (minutes, rest) ← number? t
    let (seconds, nanos) ← lastSeconds? (← expect? (unit ':') rest)
    if 60 ≤ seconds then none else return (minutes, seconds * nanosPerSecond + nanos)

def parseBody? (q : Qualifier) (t : Text) : Option IntervalFields := do
  let (negative, rest) := Text.takeSign t.trim
  let (leading, remainder) ← magnitudes? q rest.trim
  let fields : IntervalFields := ⟨negative, leading, remainder⟩
  if (fields.violation? q).isSome then none else some fields.unsignedZero

def splitWords (t : Text) : List Text :=
  (t.splitBy fun u v => Text.isBlank u == Text.isBlank v).filter fun w => !w.any Text.isBlank

/-- The qualifier words at the end of a literal: one word, or two words with `TO` between them. -/
def qualifierWords? (t : Text) : Option (List Text) :=
  let ws := (splitWords t).map Text.asciiUpper
  if !t.all fun u => Text.isBlank u || Text.isAsciiLetter u then none
  else match ws with
    | [w] => some [w]
    | [a, b, c] => if b = ("TO" : Text) then some [a, b, c] else none
    | _ => none

def blanks? : Text → Option Text
  | [] => none
  | u :: rest => if Text.isBlank u then some (rest.dropWhile Text.isBlank) else none

/-- A literal taken apart: whether a minus stands before the quote, the body, and the qualifier
words. -/
structure Parts where
  negative : Bool
  body : Text
  words : List Text

def parts? (t : Text) : Option Parts := do
  let word : Text := "INTERVAL"
  if Text.asciiUpper (t.take word.length) != word then none
  else
    let rest ← blanks? (t.drop word.length)
    let (negative, rest) := Text.takeSign rest
    let rest ← expect? (unit '\'') (rest.dropWhile Text.isBlank)
    let (body, rest) := rest.span (· != unit '\'')
    let rest ← blanks? (← expect? (unit '\'') rest)
    return ⟨negative, body, ← qualifierWords? rest⟩

def parse? (q : Qualifier) (t : Text) : Option (Qualifier × IntervalFields) :=
  match parts? t.trim with
  | some p => do
    let named ← Qualifier.ofWords? p.words
    let fields ← parseBody? named p.body
    return (named, if p.negative && !fields.isZero then { fields with negative := !fields.negative }
      else fields)
  | none => (parseBody? q t).map fun f => (q, f)

end Datum.IntervalFields
