import Datum.Convert

/-!
# Access to values in other forms

Views of a value after conversion, nothing for NULL, and ranges of its bytes or of its text.
-/

set_option autoImplicit false

namespace Datum.Value

/-- No conversion to these forms looks at the clock. -/
def plainContext : ConvertContext := .ofSession (.system 0 0)

def asKind (v : Value) (k : Kind) : Outcome Value := convert v k plainContext

def asBoolean (v : Value) : Outcome (Option Bool) := do
  match ← v.asKind .boolean with
  | .boolean b => return some b
  | _ => return none

def asInteger (v : Value) (k : IntegerKind) : Outcome (Option Whole) := do
  match ← v.asKind (.integer k) with
  | .integer _ n => return some n
  | _ => return none

def asFloat (v : Value) (k : FloatKind) : Outcome (Option Double) := do
  match ← v.asKind (.float k) with
  | .float _ x => return some x
  | _ => return none

def asDecimal (v : Value) : Outcome (Option Decimal) := do
  match ← v.asKind .numeric with
  | .numeric d => return some d
  | _ => return none

def asBytes (v : Value) : Outcome (Option Bytes) := do
  match ← v.asKind .varbinary with
  | .varbinary data => return some data
  | _ => return none

def asText (v : Value) : Outcome (Option Text) := do
  match ← v.asKind (.string .varchar) with
  | .string _ t => return some t
  | _ => return none

def checkRange (offset length : Int) (size : Nat) : Outcome Unit :=
  let start := Number.round53 (offset - 1)
  if start < 0 || length < 0 || (size : Int) - start < length then
    if start < 0 || (size : Int) < start then
      fail (.invalidValue "offset" (Num.int (Number.round53 (start + 1))).text)
    else fail (.invalidValue "length" (Num.int length).text)
  else .ok ()

/-- The part of a list that a range from an offset counted from 1 covers. -/
def slice {α : Type} (whole : List α) (offset length : Int) : Outcome (List α) := do
  checkRange offset length whole.length
  return (whole.drop (offset - 1).toNat).take length.toNat

def bytesRange (v : Value) (offset length : Int) : Outcome Bytes := do
  match ← v.asBytes with
  | some data => slice data offset length
  | none => fail (.invalidValue "value" "NULL")

def textRange (v : Value) (offset length : Int) : Outcome Text := do
  match ← v.asText with
  | some t => slice t offset length
  | none => fail (.invalidValue "value" "NULL")

end Datum.Value
