import Datum.Bytes
import Datum.Text

/-!
# UTF-8

A surrogate that stands alone is written as the replacement character U+FFFD. Reading never fails:
each maximal beginning of a well-formed sequence that is broken off, and each byte that begins none,
gives one replacement character, and a byte order mark in front is dropped.
-/

set_option autoImplicit false

namespace Datum.Text.Utf8

def replacement : Nat := 0xFFFD

def encodeScalar (n : Nat) : Bytes :=
  if n < 0x80 then [n.toUInt8]
  else if n < 0x800 then [(0xC0 + n / 0x40).toUInt8, (0x80 + n % 0x40).toUInt8]
  else if n < 0x10000 then
    [(0xE0 + n / 0x1000).toUInt8, (0x80 + n / 0x40 % 0x40).toUInt8, (0x80 + n % 0x40).toUInt8]
  else
    [(0xF0 + n / 0x40000).toUInt8, (0x80 + n / 0x1000 % 0x40).toUInt8,
      (0x80 + n / 0x40 % 0x40).toUInt8, (0x80 + n % 0x40).toUInt8]

def encodePoint (n : Nat) : Bytes :=
  encodeScalar (if 0xD800 ≤ n && n < 0xE000 then replacement else n)

def encode (t : Text) : Bytes := t.points.flatMap encodePoint

/-- A sequence under way: how many bytes are missing, the bits so far, and the range that the next
byte has to lie in. -/
structure Pending where
  missing : Nat
  bits : Nat
  low : Nat
  high : Nat

inductive Lead where
  | whole (point : Nat)
  | partly (p : Pending)
  | none

/-- The narrowed ranges shut out overlong forms, surrogates and points past U+10FFFF. -/
def lead (b : Nat) : Lead :=
  if b < 0x80 then .whole b
  else if 0xC2 ≤ b && b ≤ 0xDF then .partly ⟨1, b - 0xC0, 0x80, 0xBF⟩
  else if b == 0xE0 then .partly ⟨2, 0, 0xA0, 0xBF⟩
  else if b == 0xED then .partly ⟨2, 0xD, 0x80, 0x9F⟩
  else if 0xE1 ≤ b && b ≤ 0xEF then .partly ⟨2, b - 0xE0, 0x80, 0xBF⟩
  else if b == 0xF0 then .partly ⟨3, 0, 0x90, 0xBF⟩
  else if b == 0xF4 then .partly ⟨3, 4, 0x80, 0x8F⟩
  else if 0xF1 ≤ b && b ≤ 0xF3 then .partly ⟨3, b - 0xF0, 0x80, 0xBF⟩
  else .none

def decodePoints : Option Pending → Bytes → List Nat
  | none, [] => []
  | some _, [] => [replacement]
  | none, b :: rest =>
    match lead b.toNat with
    | .whole n => n :: decodePoints none rest
    | .partly p => decodePoints (some p) rest
    | .none => replacement :: decodePoints none rest
  | some p, b :: rest =>
    if p.low ≤ b.toNat && b.toNat ≤ p.high then
      let bits := p.bits * 0x40 + (b.toNat - 0x80)
      if p.missing ≤ 1 then bits :: decodePoints none rest
      else decodePoints (some ⟨p.missing - 1, bits, 0x80, 0xBF⟩) rest
    else
      replacement :: match lead b.toNat with
        | .whole n => n :: decodePoints none rest
        | .partly p => decodePoints (some p) rest
        | .none => replacement :: decodePoints none rest

def dropMark : List Nat → List Nat
  | 0xFEFF :: rest => rest
  | ps => ps

def decode (b : Bytes) : Text := ofPoints (dropMark (decodePoints none b))

end Datum.Text.Utf8
