import Datum.Failure
import Datum.Number.Double
import Datum.Text

/-!
# Exact decimals

A decimal is an integer and a count of fractional digits. Arithmetic is exact except where digits
are dropped, and then a rounding mode says how.
-/

set_option autoImplicit false

namespace Datum

/-- The number `unscaled / 10 ^ scale`. -/
structure Decimal where
  unscaled : Int
  scale : Nat
  deriving DecidableEq, Inhabited

/-- What happens to dropped digits: nearest with a half away from zero, nearest with a half toward
zero, or toward zero. -/
inductive RoundingMode where
  | halfUp
  | halfDown
  | down
  deriving DecidableEq

namespace Decimal

def ofScaled (unscaled : Int) (scale : Int) : Decimal :=
  if scale < 0 then ⟨unscaled * Nat.pow 10 (-scale).toNat, 0⟩ else ⟨unscaled, scale.toNat⟩

def ofInt (n : Int) : Decimal := ⟨n, 0⟩

def signum (d : Decimal) : Int := d.unscaled.sign

def neg (d : Decimal) : Decimal := ⟨-d.unscaled, d.scale⟩

def abs (d : Decimal) : Decimal := if d.unscaled < 0 then d.neg else d

def unscaledAt (d : Decimal) (scale : Nat) : Int := d.unscaled * Nat.pow 10 (scale - d.scale)

def add (a b : Decimal) : Decimal :=
  let scale := max a.scale b.scale
  ⟨a.unscaledAt scale + b.unscaledAt scale, scale⟩

def mul (a b : Decimal) : Decimal := ⟨a.unscaled * b.unscaled, a.scale + b.scale⟩

def roundQuotient (num : Int) (den : Nat) (mode : RoundingMode) : Int :=
  let quotient := num.tdiv den
  let remainder := (num.tmod den).natAbs
  let away := match mode with
    | .halfUp => remainder != 0 && den ≤ 2 * remainder
    | .halfDown => den < 2 * remainder
    | .down => false
  if away then (if num < 0 then quotient - 1 else quotient + 1) else quotient

/-- The quotient by a decimal that is not zero, with `scale` fractional digits. A negative scale
rounds to a power of ten, and may not take away more digits than the divisor adds. -/
def quotient (a b : Decimal) (scale : Int) (mode : RoundingMode) : Decimal :=
  let num := a.unscaled * Nat.pow 10 (b.scale + scale).toNat
  let den := b.unscaled.natAbs * Nat.pow 10 a.scale
  ofScaled (roundQuotient (if b.unscaled < 0 then -num else num) den mode) scale

/-- The greatest power of ten that is computed on demand. -/
def maxPower : Nat := 323228496

def div (a b : Decimal) (scale : Int) (mode : RoundingMode) : Outcome Decimal :=
  if b.unscaled = 0 then .error .divisionByZero
  else if b.scale + scale < 0 then .error .notAnInteger
  else if maxPower < (b.scale + scale).natAbs || maxPower < a.scale then .error .tooLarge
  else .ok (a.quotient b scale mode)

/-- The decimal with `scale` fractional digits. A negative scale rounds to a power of ten, and the
result has scale zero. -/
def setScale (d : Decimal) (scale : Int) (mode : RoundingMode) : Decimal :=
  if scale = d.scale then d
  else if (d.scale : Int) < scale then ⟨d.unscaledAt scale.toNat, scale.toNat⟩
  else ofScaled (roundQuotient d.unscaled (Nat.pow 10 (d.scale - scale).toNat) mode) scale

def rescale (d : Decimal) (scale : Int) (mode : RoundingMode) : Outcome Decimal :=
  if maxPower < (scale - d.scale).natAbs then .error .tooLarge else .ok (d.setScale scale mode)

def ofParts (unscaled scale : Int) : Outcome Decimal :=
  if maxPower < scale.natAbs then .error .tooLarge else .ok (ofScaled unscaled scale)

def dropZeros : Nat → Int → Decimal
  | 0, n => ⟨n, 0⟩
  | count + 1, n => if n.tmod 10 = 0 then dropZeros count (n.tdiv 10) else ⟨n, count + 1⟩

def stripTrailingZeros (d : Decimal) : Decimal := dropZeros d.scale d.unscaled

def precision (d : Decimal) : Nat := (Text.ofNat d.unscaled.natAbs).length

def compare (a b : Decimal) : Ordering :=
  let scale := max a.scale b.scale
  Ord.compare (a.unscaledAt scale) (b.unscaledAt scale)

def toInt (d : Decimal) : Int := d.unscaled.tdiv (Nat.pow 10 d.scale)

/-- The nearest double. A zero below a minus sign is not kept. -/
def toDouble (d : Decimal) : Double :=
  Double.ofScientific (d.unscaled < 0) d.unscaled.natAbs (-d.scale)

def text (d : Decimal) : Text :=
  let digits := Text.ofNat d.unscaled.natAbs
  let sign : Text := if d.unscaled < 0 then "-" else []
  if d.scale = 0 then sign ++ digits
  else
    let padded := Text.padZeros (d.scale + 1) digits
    let cut := padded.length - d.scale
    sign ++ padded.take cut ++ [Text.unit '.'] ++ padded.drop cut

def maxExponent : Nat := 100000

def exponent? : Text → Option Int
  | [] => some 0
  | mark :: rest =>
    if mark = Text.unit 'e' || mark = Text.unit 'E' then Text.toInt? rest else none

def spanFraction : Text → Text × Text
  | [] => ([], [])
  | u :: rest => if u = Text.unit '.' then Text.spanDigits rest else ([], u :: rest)

/-- A literal taken apart: its sign, its digits as one number, how many of them are fractional, and
its exponent. -/
structure Literal where
  negative : Bool
  digits : Nat
  places : Nat
  exponent : Int

/-- Reads `12`, `-0.50`, `.5`, `5.` or `1.5e-3`, with at least one digit beside the point. -/
def literal? (t : Text) : Option Literal := do
  let (negative, body) := Text.takeSign t
  let (whole, rest) := Text.spanDigits body
  let (fraction, tail) := spanFraction rest
  let exponent ← exponent? tail
  if whole.isEmpty && fraction.isEmpty then none
  else some ⟨negative, Text.digitsValue (whole ++ fraction), fraction.length, exponent⟩

def parse? (t : Text) : Option Decimal :=
  match literal? t with
  | some l =>
    if maxExponent < l.exponent.natAbs then none
    else some (ofScaled (Double.signed l.negative l.digits) (l.places - l.exponent))
  | none => none

def parseDouble? (t : Text) : Option Double :=
  (literal? t).map fun l => Double.ofScientific l.negative l.digits (l.exponent - l.places)

def ofDouble? (x : Double) : Option Decimal :=
  match x with
  | .nan => none
  | .number negative magnitude =>
    if magnitude.val = Double.top then none
    else if magnitude.val = 0 then some ⟨0, 0⟩
    else
      let d := Scientific.shortest magnitude.val
      some (ofScaled (Double.signed negative d.digits) (-d.exponent))

end Decimal

end Datum
