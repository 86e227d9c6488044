import Datum.Json.Quoted
import Datum.Number.Double
import Datum.Text

/-!
# Tokens of JSON

A text is cut into punctuation, words, numbers and quoted texts. Numbers become doubles at once.
-/

set_option autoImplicit false

namespace Datum.Json

open Text (unit spanDigits digitsValue)

inductive Token where
  | openList
  | closeList
  | openRecord
  | closeRecord
  | colon
  | comma
  | null
  | bool (b : Bool)
  | number (x : Double)
  | text (t : Text)

def isSpace (u : UInt16) : Bool := u == 0x20 || u == 9 || u == 10 || u == 13

def wholeDigits? (t : Text) : Option (Text × Text) :=
  match t with
  | [] => none
  | u :: rest =>
    if u = unit '0' then some ([u], rest)
    else
      let (digits, rest) := spanDigits (u :: rest)
      if digits.isEmpty then none else some (digits, rest)

def fraction? : Text → Option (Text × Text)
  | [] => some ([], [])
  | u :: rest =>
    if u = unit '.' then
      let (digits, rest) := spanDigits rest
      if digits.isEmpty then none else some (digits, rest)
    else some ([], u :: rest)

def exponent? : Text → Option (Int × Text)
  | [] => some (0, [])
  | u :: rest =>
    if u = unit 'e' || u = unit 'E' then
      let (negative, rest) := Text.takeSign rest
      let (digits, rest) := spanDigits rest
      if digits.isEmpty then none else some (Double.signed negative (digitsValue digits), rest)
    else some (0, u :: rest)

def readNumber? (t : Text) : Option (Double × Text) := do
  let (negative, body) := match t with
    | [] => (false, [])
    | u :: rest => if u = unit '-' then (true, rest) else (false, u :: rest)
  let (whole, rest) ← wholeDigits? body
  let (fraction, rest) ← fraction? rest
  let (exponent, rest) ← exponent? rest
  return (Double.ofScientific negative (digitsValue (whole ++ fraction))
    (exponent - (fraction.length : Int)), rest)

def punctuation? (u : UInt16) : Option Token :=
  if u = unit '[' then some .openList
  else if u = unit ']' then some .closeList
  else if u = 0x7B then some .openRecord
  else if u = 0x7D then some .closeRecord
  else if u = unit ':' then some .colon
  else if u = unit ',' then some .comma
  else none

def word? (t : Text) : Option (Token × Text) :=
  match Text.stripStart? "null" t, Text.stripStart? "true" t, Text.stripStart? "false" t with
  | some rest, _, _ => some (.null, rest)
  | _, some rest, _ => some (.bool true, rest)
  | _, _, some rest => some (.bool false, rest)
  | none, none, none => none

def token? (u : UInt16) (rest : Text) : Option (Token × Text) :=
  match punctuation? u with
  | some token => some (token, rest)
  | none =>
    if u = unit '"' then (readQuoted? rest).map fun (t, rest) => (.text t, rest)
    else
      match word? (u :: rest) with
      | some found => some found
      | none => (readNumber? (u :: rest)).map fun (x, rest) => (.number x, rest)

/-- At most `fuel` spaces and tokens. Each takes a unit at least, so that the length of the text is
fuel enough. -/
def tokensWithin? : Nat → Text → Option (List Token)
  | _, [] => some []
  | 0, _ :: _ => none
  | fuel + 1, u :: rest =>
    if isSpace u then tokensWithin? fuel rest
    else do
      let (token, rest) ← token? u rest
      return token :: (← tokensWithin? fuel rest)

def tokens? (t : Text) : Option (List Token) := tokensWithin? t.length t

end Datum.Json
