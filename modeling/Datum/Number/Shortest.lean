import Datum.Number.Double

/-!
# Shortest decimals

The decimal of fewest digits that reads back as a given number, and the decimal of a set number of
digits nearest to it.
-/

set_option autoImplicit false

namespace Datum

structure Scientific where
  digits : Nat
  exponent : Int
  deriving DecidableEq

namespace Scientific

open Number

def compareScaled (a : Nat) (i : Int) (b : Nat) (j : Int) : Ordering :=
  Ord.compare (a * Nat.pow 10 i.toNat * Nat.pow 2 (-j).toNat)
    (b * Nat.pow 2 j.toNat * Nat.pow 10 (-i).toNat)

/-- Whether a decimal lies among the reals that round to a magnitude. They reach halfway to the
neighbours, which is a quarter of the gap above where the gap below is half as wide; the ends belong
to the even significand. -/
def readsBack (magnitude : Nat) (d : Scientific) : Bool :=
  let (m, q) := Double.parts magnitude
  let narrow := m == Double.implicitBit && -1074 < q
  let low := compareScaled d.digits d.exponent (4 * m - if narrow then 1 else 2) (q - 2)
  let high := compareScaled d.digits d.exponent (4 * m + 2) (q - 2)
  let ends := m % 2 == 0
  (low == .gt || (ends && low == .eq)) && (high == .lt || (ends && high == .eq))

def grid (num den : Nat) (exponent : Int) : Nat × Nat :=
  (num * Nat.pow 10 (-exponent).toNat, den * Nat.pow 10 exponent.toNat)

/-- The least `k` with `num / den < 10 ^ k`: estimated from the binary logarithm, then corrected. -/
def size (num den : Nat) : Int :=
  let estimate : Int := Int.fdiv (floorLog2 num den * 30103) 100000 - 1
  let above (k : Int) : Bool := num * Nat.pow 10 (-k).toNat < den * Nat.pow 10 k.toNat
  if above estimate then estimate
  else if above (estimate + 1) then estimate + 1
  else if above (estimate + 2) then estimate + 2
  else estimate + 3

/-- Among the decimals on a grid the one next to a magnitude that reads back, the nearer of two, the
even one of two equally near. -/
def onGrid? (magnitude : Nat) (exponent : Int) : Option Scientific :=
  let (num, den) := Double.ratio magnitude
  let (a, b) := grid num den exponent
  let below := a / b
  let lower : Scientific := ⟨below, exponent⟩
  let upper : Scientific := ⟨below + 1, exponent⟩
  match readsBack magnitude lower, readsBack magnitude upper with
  | true, true => some (if roundEven a b = below then lower else upper)
  | true, false => some lower
  | false, true => some upper
  | false, false => none

def strip : Nat → Scientific → Scientific
  | 0, d => d
  | fuel + 1, d =>
    if d.digits % 10 = 0 && d.digits != 0 then strip fuel ⟨d.digits / 10, d.exponent + 1⟩ else d

/-- The decimal of fewest digits that reads back as a positive finite magnitude. Seventeen digits
are always enough. -/
def shortest (magnitude : Nat) : Scientific :=
  let (num, den) := Double.ratio magnitude
  let top := size num den
  let found := (List.range 17).findSome? fun (n : Nat) => onGrid? magnitude (top - (n + 1 : Nat))
  let last := grid num den (top - 17)
  strip 17 (found.getD ⟨roundEven last.1 last.2, top - 17⟩)

/-- The decimal of `count` digits nearest to a positive finite magnitude, a half to the larger. -/
def nearest (magnitude count : Nat) : Scientific :=
  let (num, den) := Double.ratio magnitude
  let exponent := size num den - count
  let (a, b) := grid num den exponent
  ⟨roundUp a b, exponent⟩

end Scientific

end Datum
