/-!
# Double-precision numbers

A binary64 number in exact arithmetic. The exponent and fraction fields of a number that is not NaN
are kept as one natural number, its magnitude: order of magnitudes is order of absolute values, and
a carry out of the fraction is a step of the exponent. There is one NaN.
-/

set_option autoImplicit false

namespace Datum

namespace Number

def roundEven (num den : Nat) : Nat :=
  let q := num / den
  let r := num % den
  if 2 * r < den then q else if den < 2 * r then q + 1 else if q % 2 = 0 then q else q + 1

def roundUp (num den : Nat) : Nat :=
  let q := num / den
  if den ≤ 2 * (num % den) then q + 1 else q

/-- The numerator and denominator of `n * base ^ e`. -/
def scaled (base n : Nat) (e : Int) : Nat × Nat :=
  (n * Nat.pow base e.toNat, Nat.pow base (-e).toNat)

/-- The integer `e` with `2 ^ e ≤ num / den < 2 ^ (e + 1)`, for a positive quotient. -/
def floorLog2 (num den : Nat) : Int :=
  let e : Int := (num.log2 : Int) - den.log2
  if num * Nat.pow 2 (-e).toNat < den * Nat.pow 2 e.toNat then e - 1 else e

/-- The quotient `num / den` rounded, ties to even, to `m * 2 ^ q` with `m` of at most `bits` bits
(or the next power of two) and `q` at least `least`. -/
def roundBinary (bits : Nat) (least : Int) (num den : Nat) : Nat × Int :=
  let q := max least (floorLog2 num den - (bits - 1 : Nat))
  (roundEven (num * Nat.pow 2 (-q).toNat) (den * Nat.pow 2 q.toNat), q)

/-- An integer rounded to 53 significant bits, ties to even. Integers up to `2 ^ 53` in magnitude
stay as they are. -/
def round53 (n : Int) : Int :=
  if n.natAbs ≤ 0x20000000000000 then n
  else
    let (m, q) := roundBinary 53 0 n.natAbs 1
    let magnitude : Int := (m * Nat.pow 2 q.toNat : Nat)
    if n < 0 then -magnitude else magnitude

end Number

abbrev Double.top : Nat := 0x7FF0000000000000

/-- The 53rd bit of a significand, which a magnitude does not hold; the exponent takes its place. -/
abbrev Double.implicitBit : Nat := 0x10000000000000

abbrev Double.signBit : Nat := 0x8000000000000000

inductive Double where
  | nan
  | number (negative : Bool) (magnitude : Fin (Double.top + 1))
  deriving DecidableEq

namespace Double

open Number

def ofMagnitude (negative : Bool) (n : Nat) : Double :=
  .number negative ⟨min n top, Nat.lt_succ_of_le (Nat.min_le_right n top)⟩

def zero : Double := ofMagnitude false 0

def negZero : Double := ofMagnitude true 0

def infinity : Double := ofMagnitude false top

def negInfinity : Double := ofMagnitude true top

instance : Inhabited Double := ⟨zero⟩

/-- A word of 64 bits; every NaN becomes the one NaN. -/
def ofBits (bits : Nat) : Double :=
  let magnitude := bits % signBit
  if top < magnitude then .nan else ofMagnitude (signBit ≤ bits) magnitude

def toBits : Double → Nat
  | .nan => 0x7FF8000000000000
  | .number negative magnitude => (if negative then signBit else 0) + magnitude.val

def isNaN : Double → Bool
  | .nan => true
  | .number _ _ => false

def isFinite : Double → Bool
  | .nan => false
  | .number _ magnitude => magnitude.val < top

def isZero : Double → Bool
  | .nan => false
  | .number _ magnitude => magnitude.val == 0

/-- Below zero; the negative zero is not. -/
def isNegative : Double → Bool
  | .nan => false
  | .number negative magnitude => negative && magnitude.val != 0

def parts (magnitude : Nat) : Nat × Int :=
  let exponent : Nat := magnitude / implicitBit
  let fraction : Nat := magnitude % implicitBit
  if exponent = 0 then (fraction, -1074)
  else (implicitBit + fraction, (exponent : Int) - 1075)

def ratio (magnitude : Nat) : Nat × Nat :=
  let (m, q) := parts magnitude
  scaled 2 m q

def nearest (num den : Nat) : Nat :=
  if num = 0 then 0
  else
    let (m, q) := roundBinary 53 (-1074) num den
    (q + 1074).toNat * implicitBit + m

def ofRatio (negative : Bool) (num den : Nat) : Double := ofMagnitude negative (nearest num den)

def ofInt (n : Int) : Double := ofRatio (n < 0) n.natAbs 1

/-- The number nearest to `digits * 10 ^ exponent`. Bounds on its order of magnitude, taken from the
binary logarithm, tell first whether it is out of range, so that no great power is computed in
vain: `2 ^ 3` is below ten, and `10 ^ 3` below `2 ^ 10`. -/
def ofScientific (negative : Bool) (digits : Nat) (exponent : Int) : Double :=
  if digits = 0 || (digits.log2 / 3 : Nat) + exponent < -330 then ofMagnitude negative 0
  else if 310 < (3 * digits.log2 / 10 : Nat) + exponent then ofMagnitude negative top
  else
    let (num, den) := scaled 10 digits exponent
    ofRatio negative num den

def signed (negative : Bool) (n : Nat) : Int := if negative then -(n : Int) else n

/-- The integer that a number is, if it is one; both zeros are the integer zero. -/
def toInt? : Double → Option Int
  | .nan => none
  | .number negative magnitude =>
    if magnitude.val = top then none
    else
      let (num, den) := ratio magnitude.val
      if num % den = 0 then some (signed negative (num / den)) else none

def floor? : Double → Option Int
  | .nan => none
  | .number negative magnitude =>
    if magnitude.val = top then none
    else
      let (num, den) := ratio magnitude.val
      some (Int.fdiv (signed negative num) den)

def trunc? : Double → Option Int
  | .nan => none
  | .number negative magnitude =>
    if magnitude.val = top then none
    else
      let (num, den) := ratio magnitude.val
      some (signed negative (num / den))

def roundHalfAway? : Double → Option Int
  | .nan => none
  | .number negative magnitude =>
    if magnitude.val = top then none
    else
      let (num, den) := ratio magnitude.val
      some (signed negative (roundUp num den))

def toSingle : Double → Double
  | .nan => .nan
  | .number negative magnitude =>
    if magnitude.val = top then .number negative magnitude
    else
      let (num, den) := ratio magnitude.val
      if num = 0 then .number negative magnitude
      else
        let (m, q) := roundBinary 24 (-149) num den
        if 0x100000000000000000000000000000000 ≤ m * Nat.pow 2 q.toNat then ofMagnitude negative top
        else
          let (num, den) := scaled 2 m q
          ofRatio negative num den

/-- The place of a number in the total order: by value, the negative zero below the positive one,
NaN above all. -/
def rank : Double → Int
  | .nan => top + 1
  | .number negative magnitude =>
    if negative then -(magnitude.val : Int) - 1 else magnitude.val

def compare (x y : Double) : Ordering := Ord.compare x.rank y.rank

/-- Equality of numbers: NaN equals nothing, and the two zeros are equal. -/
def sameNumber (x y : Double) : Bool :=
  match x, y with
  | .number _ _, .number _ _ => x == y || (x.isZero && y.isZero)
  | _, _ => false

def le (x y : Double) : Bool :=
  !x.isNaN && !y.isNaN && (x.rank ≤ y.rank || (x.isZero && y.isZero))

def signum : Double → Int
  | .nan => 0
  | .number negative magnitude => if magnitude.val = 0 then 0 else if negative then -1 else 1

end Double

end Datum
