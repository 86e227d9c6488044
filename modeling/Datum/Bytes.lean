import Datum.Text

/-!
# Byte strings and UUIDs

Order, big-endian two's complement words, and hexadecimal text: two lower case digits a byte, of
which both cases are read. A UUID is two words of 64 bits; its text has the digits in groups of 8,
4, 4, 4 and 12, and dashes are ignored on reading.
-/

set_option autoImplicit false

namespace Datum

abbrev Bytes := List UInt8

namespace Bytes

def compare : Bytes → Bytes → Ordering
  | [], [] => .eq
  | [], _ :: _ => .lt
  | _ :: _, [] => .gt
  | a :: s, b :: t =>
    if a.toNat < b.toNat then .lt else if b.toNat < a.toNat then .gt else compare s t

def toNat (b : Bytes) : Nat := b.foldl (fun n x => n * 256 + x.toNat) 0

/-- The signed integer in two's complement of the bytes, most significant first. -/
def toSigned (b : Bytes) : Int := Int.bmod b.toNat (Nat.pow 256 b.length)

def ofNat : Nat → Nat → Bytes
  | 0, _ => []
  | width + 1, n => ofNat width (n / 256) ++ [n.toUInt8]

def ofSigned (width : Nat) (n : Int) : Bytes := ofNat width (n.emod (Nat.pow 256 width)).toNat

end Bytes

namespace Text.Hex

def digit (n : Nat) : UInt16 := (if n < 10 then 48 + n else 87 + n).toUInt16

def value? (u : UInt16) : Option Nat :=
  let n := u.toNat
  if 48 ≤ n && n ≤ 57 then some (n - 48)
  else if 65 ≤ n && n ≤ 70 then some (n - 55)
  else if 97 ≤ n && n ≤ 102 then some (n - 87)
  else none

def encode (b : Bytes) : Text := b.flatMap fun x => [digit (x.toNat / 16), digit (x.toNat % 16)]

/-- Nothing on an odd number of units or on a unit that is no digit. -/
def decode? : Text → Option Bytes
  | [] => some []
  | [_] => none
  | u :: v :: rest => do
    let high ← value? u
    let low ← value? v
    return (high * 16 + low).toUInt8 :: (← decode? rest)

end Text.Hex

structure Uuid where
  high : UInt64
  low : UInt64
  deriving DecidableEq, Inhabited

namespace Uuid

def ofInts (high low : Int) : Uuid :=
  ⟨(high.emod 0x10000000000000000).toNat.toUInt64, (low.emod 0x10000000000000000).toNat.toUInt64⟩

def toBytes (u : Uuid) : Bytes := Bytes.ofNat 8 u.high.toNat ++ Bytes.ofNat 8 u.low.toNat

def ofBytes? (b : Bytes) : Option Uuid :=
  if b.length = 16 then
    some ⟨(Bytes.toNat (b.take 8)).toUInt64, (Bytes.toNat (b.drop 8)).toUInt64⟩
  else none

/-- Reads 32 digits; dashes anywhere and blanks around them do not count. -/
def parse? (t : Text) : Option Uuid :=
  match Text.Hex.decode? (t.trim.filter (· != Text.unit '-')) with
  | some b => ofBytes? b
  | none => none

def text (u : Uuid) : Text :=
  let digits := Text.Hex.encode u.toBytes
  let dash := [Text.unit '-']
  digits.take 8 ++ dash ++ (digits.drop 8).take 4 ++ dash ++ (digits.drop 12).take 4 ++ dash
    ++ (digits.drop 16).take 4 ++ dash ++ digits.drop 20

def compare (u v : Uuid) : Ordering :=
  (Ord.compare u.high.toNat v.high.toNat).then (Ord.compare u.low.toNat v.low.toNat)

end Uuid

end Datum
