import Datum.Session

/-!
# Conversion to booleans and numbers

A number becomes an integer of a kind within the range of the kind; an overflow names the number and
the column.
-/

set_option autoImplicit false

namespace Datum.Convert

/-- The exact decimal of a number; nothing for NaN, the infinities and what is no number. An
approximate number counts by its text. -/
def exactDecimal? : Value → Option Decimal
  | .boolean b => some (.ofInt (if b then 1 else 0))
  | .integer _ n => some (.ofInt n.val)
  | .numeric d => some d
  | .float .real x => Decimal.parse? x.singleText
  | .float .double x => Decimal.parse? x.sqlText
  | .enum e => some (.ofInt e.ordinal)
  | .interval q f => some (f.toDecimal q)
  | _ => none

def trueWords : List Text := ["TRUE", "T", "YES", "Y"]

def falseWords : List Text := ["FALSE", "F", "NO", "N"]

def parseBoolean? (t : Text) : Option Bool :=
  let word := t.upper
  if trueWords.contains word then some true
  else if falseWords.contains word then some false
  else (Decimal.parse? t).map fun d => d.signum != 0

def toBoolean (v : Value) : Outcome Value := do
  match v with
  | .integer _ n => return .boolean (n.val != 0)
  | .numeric d => return .boolean (d.signum != 0)
  | .float _ x => return .boolean (x.signum != 0)
  | .interval _ f => return .boolean (f.signum != 0)
  | .time _ | .date _ | .timestamp _ _ | .timestampTz _ _ _ | .varbinary _ | .object _ _ | .uuid _
  | .enum _ => unsupported v .boolean []
  | v =>
    match parseBoolean? (← v.text).trim with
    | some b => return .boolean b
    | none => malformed v .boolean

def narrow (k : IntegerKind) (n : Int) (column : Text) : Outcome Int :=
  if k.holds n then .ok n else fail (.numericOverflow (Text.ofInt n) column)

def roundDouble (x : Double) (column : Text) : Outcome Int :=
  match x.roundHalfAway? with
  | some n =>
    if IntegerKind.bigint.holds n then .ok n else fail (.numericOverflow x.text column)
  | none => fail (.numericOverflow x.text column)

/-- The integer nearest to a decimal that itself lies within 64 bits, a half away from zero. -/
def roundDecimal (d : Decimal) (column : Text) : Outcome Int :=
  let greatest := Decimal.ofInt IntegerKind.bigint.greatest
  let least := Decimal.ofInt IntegerKind.bigint.least
  if d.compare greatest = .gt || d.compare least = .lt then
    fail (.numericOverflow d.text column)
  else .ok (d.setScale 0 .halfUp).unscaled

def textInteger (v : Value) (target : Kind) : Outcome Int := do
  match Text.toInt? (← v.text).trim with
  | some n => return n
  | none => malformed v target

/-- The integer of a value before the check against its kind. Bytes count as a number where there
are exactly as many as the kind has. -/
def integerOf (v : Value) (k : IntegerKind) (column : Text) : Outcome Int :=
  match v with
  | .interval q f => .ok (f.toInt q)
  | .boolean b => .ok (if b then 1 else 0)
  | .integer _ n => .ok n.val
  | .enum e => .ok e.ordinal
  | .numeric d => roundDecimal d column
  | .float _ x => roundDouble x column
  | .varbinary data =>
    if data.length = k.width then .ok data.toSigned else textInteger v (.integer k)
  | .timestampTz _ _ _ => unsupported v (.integer k) []
  | v => textInteger v (.integer k)

def toInteger (v : Value) (k : IntegerKind) (column : Text) : Outcome Value := do
  let n ← integerOf v k column
  return .integer k (.int (← narrow k n column))

def toNumeric (v : Value) : Outcome Value := do
  match v with
  | .timestampTz _ _ _ => unsupported v .numeric []
  | .float _ _ =>
    match exactDecimal? v with
    | some d => return .numeric d
    | none => unsupported v .numeric (← v.text)
  | v =>
    match exactDecimal? v with
    | some d => return .numeric d
    | none =>
      match Decimal.parse? (← v.text).trim with
      | some d => return .numeric d
      | none => malformed v .numeric

/-- The words for NaN and the infinities, in exactly this case. -/
def special? (t : Text) : Option Double :=
  let (negative, word) := Text.takeSign t
  if word = ("NaN" : Text) then some .nan
  else if word = ("Infinity" : Text) then
    some (if negative then Double.negInfinity else Double.infinity)
  else none

def parseFloat? (t : Text) : Option Double :=
  match special? t with
  | some x => some x
  | none => Decimal.parseDouble? t

def toFloat (v : Value) (k : FloatKind) : Outcome Value := do
  match v with
  | .boolean b => return .float k (if b then Double.ofInt 1 else Double.zero)
  | .integer _ n => return .ofDouble k n.toDouble
  | .float _ x => return .ofDouble k x
  | .numeric d => return .ofDouble k d.toDouble
  | .interval q f => return .ofDouble k (f.toDecimal q).toDouble
  | .enum _ | .timestampTz _ _ _ => unsupported v (.float k) []
  | v =>
    match parseFloat? (← v.text).trim with
    | some x => return .ofDouble k x
    | none => malformed v (.float k)

end Datum.Convert
