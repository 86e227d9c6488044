import Datum.Bytes

/-!
# Quoted text in JSON

Text is written between double quotes with the fewest escapes, and surrogates that stand alone are
escaped, so that the result is well-formed. Reading takes every escape.
-/

set_option autoImplicit false

namespace Datum.Json

open Text (unit)

def hexEscape (u : UInt16) : Text :=
  let n := u.toNat
  [unit '\\', unit 'u'] ++ [n / 0x1000, n / 0x100 % 16, n / 0x10 % 16, n % 16].map Text.Hex.digit

def shortEscape? (u : UInt16) : Option UInt16 :=
  if u = unit '"' || u = unit '\\' then some u
  else if u = 8 then some (unit 'b')
  else if u = 12 then some (unit 'f')
  else if u = 10 then some (unit 'n')
  else if u = 13 then some (unit 'r')
  else if u = 9 then some (unit 't')
  else none

/-- A unit that is no half of a surrogate pair. -/
def quoteUnit (u : UInt16) : Text :=
  match shortEscape? u with
  | some letter => [unit '\\', letter]
  | none => if u.toNat < 0x20 || Text.isSurrogate u then hexEscape u else [u]

def quoteUnits : Text → Text
  | [] => []
  | [u] => quoteUnit u
  | u :: v :: rest =>
    if Text.isHighSurrogate u && Text.isLowSurrogate v then u :: v :: quoteUnits rest
    else quoteUnit u ++ quoteUnits (v :: rest)

def quote (t : Text) : Text := [unit '"'] ++ quoteUnits t ++ [unit '"']

def unescape? (letter : UInt16) : Option UInt16 :=
  if letter = unit '"' || letter = unit '\\' || letter = unit '/' then some letter
  else if letter = unit 'b' then some 8
  else if letter = unit 'f' then some 12
  else if letter = unit 'n' then some 10
  else if letter = unit 'r' then some 13
  else if letter = unit 't' then some 9
  else none

def hexUnit? (a b c d : UInt16) : Option UInt16 := do
  let a ← Text.Hex.value? a
  let b ← Text.Hex.value? b
  let c ← Text.Hex.value? c
  let d ← Text.Hex.value? d
  return (((a * 16 + b) * 16 + c) * 16 + d).toUInt16

/-- What follows an opening quote: the text up to the closing one, and the rest. Controls have to be
escaped. -/
def readQuoted? : Text → Option (Text × Text)
  | [] => none
  | u :: rest =>
    if u = unit '"' then some ([], rest)
    else if u = unit '\\' then
      match rest with
      | [] => none
      | letter :: rest =>
        if letter = unit 'u' then
          match rest with
          | a :: b :: c :: d :: rest => do
            let v ← hexUnit? a b c d
            let (t, rest) ← readQuoted? rest
            return (v :: t, rest)
          | _ => none
        else do
          let v ← unescape? letter
          let (t, rest) ← readQuoted? rest
          return (v :: t, rest)
    else if u.toNat < 0x20 then none
    else do
      let (t, rest) ← readQuoted? rest
      return (u :: t, rest)

end Datum.Json
