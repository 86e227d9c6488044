import Datum.Compare.SameKind
import Datum.Convert

/-!
# Comparison

Values of different kinds are compared after conversion to the higher of their kinds. Arrays and
rows compare their elements in the same way, so that comparison and coercion go down together; the
depth of the operands bounds how far.
-/

set_option autoImplicit false

namespace Datum

namespace Compare

/-- Both results, or the failure of one: what is no error of the library goes before what is. -/
def both {α : Type} (l r : Outcome α) : Outcome (α × α) :=
  match l, r with
  | .ok a, .ok b => .ok (a, b)
  | .error (.value e), .error (.value _) => fail e
  | .error (.value _), .error f => .error f
  | .error f, _ => .error f
  | .ok _, .error f => .error f

def sharedDomain (l r : Value) : Outcome (Option EnumDomain) :=
  match l, r with
  | .enum d, .enum e => do return some (← d.domain.shared e.domain)
  | .enum d, _ => .ok (some d.domain)
  | _, .enum e => .ok (some e.domain)
  | _, _ => .ok none

def context (k : Kind) (s : Session) (l r : Value) : Outcome ConvertContext :=
  if k = .enum then do
    return { ConvertContext.ofSession s with extension := (← sharedDomain l r).map .enum }
  else .ok (.ofSession s)

def coerceTo (k : Kind) (s : Session) (l r : Value) : Outcome (Value × Value) := do
  let c ← context k s l r
  both (convert l k c) (convert r k c)

/-- Both operands in one kind; only enumerators are converted where the kinds agree. -/
def coerce (s : Session) (l r : Value) : Outcome (Value × Value) := do
  if l.kind = r.kind && l.kind != .enum then return (l, r)
  else coerceTo (← higherKind l.kind r.kind) s l r

def afterCoercion (elements : List Value → List Value → Outcome Ordering) (s : Session)
    (l r : Value) : Outcome Ordering := do
  let (l, r) ← coerce s l r
  sameKind elements l r

def isSameResult : Value → Value → Bool
  | .resultSet m _ _, .resultSet n _ _ => m == n
  | _, _ => false

def totalWithin (s : Session) : Nat → Value → Value → Outcome Ordering
  | 0, _, _ => .ok .eq
  | depth + 1, l, r =>
    if isSameResult l r then .ok .eq
    else match l.isNull, r.isNull with
      | true, true => .ok .eq
      | true, false => .ok .lt
      | false, true => .ok .gt
      | false, false => afterCoercion (elementOrder (totalWithin s depth)) s l r

/-- The total order of values: NULL first, everything else with coercion. -/
def total (s : Session) (l r : Value) : Outcome Ordering :=
  totalWithin s (l.depth + r.depth + 1) l r

def typeSafe (s : Session) (l r : Value) : Outcome Ordering :=
  sameKind (elementOrder (total s)) l r

def withCoercion (s : Session) (l r : Value) : Outcome Ordering :=
  afterCoercion (elementOrder (total s)) s l r

mutual

/-- Three-valued comparison: nothing where a NULL leaves the order open. In arrays and rows a NULL
leaves an ordering open at once, while for equality a difference further on still decides. -/
def withNull (s : Session) (forEquality : Bool) : Value → Value → Outcome (Option Ordering)
  | .null, _ => .ok none
  | .array a, .array b => elementsWithNull s forEquality false a b
  | .row a, .row b =>
    if a.length = b.length then elementsWithNull s forEquality false a b else widthMismatch
  | l, r => if r.isNull then .ok none else do return some (← withCoercion s l r)

def elementsWithNull (s : Session) (forEquality : Bool) :
    Bool → List Value → List Value → Outcome (Option Ordering)
  | isOpen, [], [] => .ok (if isOpen then none else some .eq)
  | _, [], _ :: _ => .ok (some .lt)
  | _, _ :: _, [] => .ok (some .gt)
  | isOpen, a :: l, b :: r => do
    match ← withNull s forEquality a b with
    | none => if forEquality then elementsWithNull s forEquality true l r else return none
    | some .eq => elementsWithNull s forEquality isOpen l r
    | some found => return some found

end

end Compare

end Datum
