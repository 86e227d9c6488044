import Datum.Number.Layout

/-!
# Numbers given by callers

A number is an exact integer or, when it is no integer (a fraction, NaN, an infinity) or the
negative zero, a double. Operations that want an integer look at `toInt?`. `place` orders all
numbers exactly.
-/

set_option autoImplicit false

namespace Datum

/-- Whether a double is no integer, or the negative zero, which no integer stands for. -/
def Double.isProper (x : Double) : Bool := x == Double.negZero || x.toInt?.isNone

inductive Num where
  | int (n : Int)
  | real (x : Double) (proper : x.isProper = true)
  deriving DecidableEq

namespace Num

instance : Inhabited Num := ⟨.int 0⟩

def nan : Num := .real .nan rfl

def negZero : Num := .real Double.negZero (by simp [Double.isProper])

def ofDouble (x : Double) : Num :=
  if proper : x.isProper = true then .real x proper else .int (x.toInt?.getD 0)

def toDouble : Num → Double
  | .int n => Double.ofInt n
  | .real x _ => x

def toInt? : Num → Option Int
  | .int n => some n
  | .real x _ => x.toInt?

/-- The greatest magnitude up to which every integer is exact in a double. -/
def maxSafe : Int := 0x1FFFFFFFFFFFFF

def isSafe (n : Int) : Bool := -maxSafe ≤ n && n ≤ maxSafe

/-- Text in messages: exact up to the safe magnitude, as a double beyond. -/
def text : Num → Text
  | .int n => if isSafe n then Text.ofInt n else (Double.ofInt n).text
  | .real x _ => x.text

def sameNumber (x y : Num) : Bool :=
  match x, y with
  | .int a, .int b => a == b
  | _, _ => x.toDouble.sameNumber y.toDouble

def atLeast (x : Num) (count : Int) : Bool :=
  match x with
  | .int n => count ≤ n
  | .real x _ =>
    match x.floor? with
    | some n => count ≤ n
    | none => x = Double.infinity

def le (x y : Num) : Bool :=
  match x with
  | .int n => y.atLeast n
  | .real x _ => x.le y.toDouble

/-- The place of a number among all numbers: first negative infinity, then the finite numbers, each
with twice its value in units of the least positive double, then infinity and NaN. The negative zero
comes just below the other one. -/
def place : Num → Int × Int
  | .int n => (0, n * Nat.pow 2 1075)
  | .real .nan _ => (2, 0)
  | .real (.number negative magnitude) _ =>
    if magnitude.val = Double.top then (if negative then -1 else 1, 0)
    else if magnitude.val = 0 then (0, if negative then -1 else 0)
    else
      let (m, q) := Double.parts magnitude.val
      (0, Double.signed negative (m * Nat.pow 2 (q + 1075).toNat))

def before (x y : Num) : Bool :=
  x.place.1 < y.place.1 || (x.place.1 == y.place.1 && x.place.2 < y.place.2)

def max (x y : Num) : Num := if x.before y then y else x

end Num

/-- An integer, or the zero with a minus sign that a double can be. The sign is seen only where the
integer becomes a number of a caller again. -/
inductive Whole where
  | int (n : Int)
  | minusZero
  deriving DecidableEq

namespace Whole

instance : Inhabited Whole := ⟨.int 0⟩

instance : Coe Int Whole := ⟨.int⟩

def val : Whole → Int
  | .int n => n
  | .minusZero => 0

def ofNum? : Num → Option Whole
  | .int n => some (.int n)
  | .real x _ => if x = Double.negZero then some .minusZero else none

def toNum : Whole → Num
  | .int n => .int n
  | .minusZero => .negZero

def toDouble (n : Whole) : Double := n.toNum.toDouble

end Whole

end Datum
