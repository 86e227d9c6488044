import Datum.Number.Shortest
import Datum.Text

/-!
# Text of numbers

How a number is written: the digits come from `Scientific`, the layout from a record of decisions.
-/

set_option autoImplicit false

namespace Datum

/-- The decisions of a number format. Both formats write numbers from a millionth up to `10 ^ 21`
positionally. -/
structure Layout where
  /-- Whole mantissas end in `.0`. -/
  wholePoint : Bool
  /-- The mark before an exponent. -/
  mark : Text
  /-- A positive exponent has a plus sign. -/
  plus : Bool
  /-- The text of the negative zero. -/
  negZero : Text

namespace Layout

/-- Numbers in messages and in type descriptions: `1`, `1.5e-7`, `1e+21`. -/
def plain : Layout := ⟨false, "e", true, "0"⟩

/-- Approximate numbers in SQL: `1.0`, `1.5E-7`, `1.0E21`. -/
def sql : Layout := ⟨true, "E", false, "-0.0"⟩

def pointAfter (l : Layout) (count : Nat) (digits : Text) : Text :=
  if digits.length ≤ count then
    digits ++ List.replicate (count - digits.length) (Text.unit '0')
      ++ (if l.wholePoint then (".0" : Text) else [])
  else digits.take count ++ [Text.unit '.'] ++ digits.drop count

def decimal (l : Layout) (d : Scientific) : Text :=
  let digits := Text.ofNat d.digits
  let point : Int := digits.length + d.exponent
  if 0 < point && point ≤ 21 then l.pointAfter point.toNat digits
  else if -6 < point && point ≤ 0 then
    ("0." : Text) ++ List.replicate (-point).toNat (Text.unit '0') ++ digits
  else
    let exponent := point - 1
    l.pointAfter 1 digits ++ l.mark ++ (if l.plus && 0 ≤ exponent then ("+" : Text) else [])
      ++ Text.ofInt exponent

def number (l : Layout) : Double → Text
  | .nan => "NaN"
  | .number negative magnitude =>
    let sign : Text := if negative then "-" else []
    if magnitude.val = Double.top then sign ++ ("Infinity" : Text)
    else if magnitude.val = 0 then
      if negative then l.negZero else if l.wholePoint then "0.0" else "0"
    else sign ++ l.decimal (Scientific.shortest magnitude.val)

end Layout

namespace Double

def text (x : Double) : Text := Layout.plain.number x

def sqlText (x : Double) : Text := Layout.sql.number x

def roundings (x : Double) : List Double :=
  match x with
  | .nan => []
  | .number negative magnitude =>
    (List.range 9).map fun n =>
      let d := Scientific.nearest magnitude.val (n + 1)
      ofScientific negative d.digits d.exponent

/-- A single-precision number in SQL: the fewest digits that read back at single precision. -/
def singleText (x : Double) : Text :=
  if !x.isFinite || x.isZero then x.sqlText
  else
    match x.roundings.find? (fun y => y.toSingle == x) with
    | some y => y.sqlText
    | none => x.sqlText

end Double

end Datum
