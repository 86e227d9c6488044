/-!
# Text

Text is a list of 16-bit units, so that a surrogate may stand alone. This module holds literals,
blanks and trimming, concatenation, SQL quoting, the order by units and decimal digits.
-/

set_option autoImplicit false

namespace Datum

/-- Text as 16-bit units, in order. -/
abbrev Text := List UInt16

namespace Text

def ofPoint (n : Nat) : Text :=
  if n < 0x10000 then [n.toUInt16]
  else [(0xD800 + (n - 0x10000) / 0x400).toUInt16, (0xDC00 + (n - 0x10000) % 0x400).toUInt16]

def ofPoints (ps : List Nat) : Text := ps.flatMap ofPoint

def ofString (s : String) : Text := ofPoints (s.toList.map Char.toNat)

instance : Coe String Text := ⟨ofString⟩

def unit (c : Char) : UInt16 := c.toNat.toUInt16

def isHighSurrogate (u : UInt16) : Bool := 0xD800 ≤ u.toNat && u.toNat < 0xDC00

def isLowSurrogate (u : UInt16) : Bool := 0xDC00 ≤ u.toNat && u.toNat < 0xE000

def isSurrogate (u : UInt16) : Bool := 0xD800 ≤ u.toNat && u.toNat < 0xE000

/-- The code points of a text; a surrogate that stands alone counts as one. -/
def points : Text → List Nat
  | [] => []
  | [u] => [u.toNat]
  | u :: v :: rest =>
    if isHighSurrogate u && isLowSurrogate v then
      (0x10000 + (u.toNat - 0xD800) * 0x400 + (v.toNat - 0xDC00)) :: points rest
    else u.toNat :: points (v :: rest)

def isWellFormed : Text → Bool
  | [] => true
  | [u] => !isSurrogate u
  | u :: v :: rest =>
    if isHighSurrogate u then isLowSurrogate v && isWellFormed rest
    else !isSurrogate u && isWellFormed (v :: rest)

/-- White space: the space separators, the line and paragraph separators, the five ASCII controls
from tab to carriage return, and the byte order mark. -/
def isBlank (u : UInt16) : Bool :=
  let n := u.toNat
  (9 ≤ n && n ≤ 13) || n == 0x20 || n == 0xA0 || n == 0x1680 || (0x2000 ≤ n && n ≤ 0x200A)
    || n == 0x2028 || n == 0x2029 || n == 0x202F || n == 0x205F || n == 0x3000 || n == 0xFEFF

def trimStart (t : Text) : Text := t.dropWhile isBlank

def trimEnd (t : Text) : Text := (t.reverse.dropWhile isBlank).reverse

def trim (t : Text) : Text := trimEnd (trimStart t)

def dropTrailingSpaces (t : Text) : Text := (t.reverse.dropWhile (· == 0x20)).reverse

def join (separator : Text) : List Text → Text
  | [] => []
  | [t] => t
  | t :: rest => t ++ separator ++ join separator rest

def padZeros (width : Nat) (t : Text) : Text := List.replicate (width - t.length) (unit '0') ++ t

def quoteSql (t : Text) : Text :=
  [unit '\''] ++ t.flatMap (fun u => if u = unit '\'' then [u, u] else [u]) ++ [unit '\'']

def compare : Text → Text → Ordering
  | [], [] => .eq
  | [], _ :: _ => .lt
  | _ :: _, [] => .gt
  | u :: s, v :: t =>
    if u.toNat < v.toNat then .lt else if v.toNat < u.toNat then .gt else compare s t

def isDigit (u : UInt16) : Bool := 48 ≤ u.toNat && u.toNat ≤ 57

def isAsciiLetter (u : UInt16) : Bool :=
  (65 ≤ u.toNat && u.toNat ≤ 90) || (97 ≤ u.toNat && u.toNat ≤ 122)

def isWordUnit (u : UInt16) : Bool := isAsciiLetter u || isDigit u || u == unit '_'

def asciiUpperUnit (u : UInt16) : UInt16 :=
  if 97 ≤ u.toNat && u.toNat ≤ 122 then (u.toNat - 32).toUInt16 else u

def asciiUpper (t : Text) : Text := t.map asciiUpperUnit

def stripStart? : Text → Text → Option Text
  | [], t => some t
  | _ :: _, [] => none
  | u :: p, v :: t => if u = v then stripStart? p t else none

/-- The last `2 ^ k` decimal digits of a number, most significant first. -/
def digitBlock : Nat → Nat → List Nat
  | 0, n => [n % 10]
  | k + 1, n =>
    let half := Nat.pow 10 (Nat.pow 2 k)
    digitBlock k (n / half) ++ digitBlock k (n % half)

def digitsOf (n : Nat) : List Nat :=
  (digitBlock (Nat.log2 (Nat.log2 n + 1) + 1) n).dropWhile (· == 0)

def digitUnit (d : Nat) : UInt16 := (48 + d).toUInt16

def digitValue (u : UInt16) : Nat := u.toNat - 48

def ofNat (n : Nat) : Text := if n = 0 then [digitUnit 0] else (digitsOf n).map digitUnit

def ofInt (n : Int) : Text := if n < 0 then unit '-' :: ofNat n.natAbs else ofNat n.natAbs

def digitsValue (t : Text) : Nat := t.foldl (fun n u => n * 10 + digitValue u) 0

def allDigits (t : Text) : Bool := t.all isDigit

def spanDigits (t : Text) : Text × Text := t.span isDigit

/-- A sign in front, if there is one: whether it is a minus, and what follows. -/
def takeSign : Text → Bool × Text
  | [] => (false, [])
  | u :: rest =>
    if u = unit '-' then (true, rest)
    else if u = unit '+' then (false, rest)
    else (false, u :: rest)

def toInt? (t : Text) : Option Int :=
  let (negative, digits) := takeSign t
  if digits.isEmpty || !allDigits digits then none
  else some (if negative then -(digitsValue digits : Int) else digitsValue digits)

end Text

end Datum
