import Datum.Text.Case
import Datum.Value.Text

/-!
# Comparison of values of one kind

Every kind has an order of its own. The order of arrays and rows is that of their elements, of which
the comparison is a parameter.
-/

set_option autoImplicit false

namespace Datum.Compare

def mismatch (l r : Value) : Outcome Ordering :=
  fail (.dataConversion r.kind l.kind "operands of compareTypeSafe must have the same kind")

def widthMismatch {α : Type} : Outcome α :=
  fail (.dataConversion .row .row "rows have different numbers of fields")

def utcNanos (day nanos offset : Int) : Int :=
  day * nanosPerDay + nanos - offset * nanosPerSecond

/-- Of equal instants the one at the greater offset comes first. -/
def instantOrder (l r leftOffset rightOffset : Int) : Ordering :=
  (Ord.compare l r).then (Ord.compare rightOffset leftOffset)

def stringOrder (k : StringKind) (s t : Text) : Ordering :=
  match k with
  | .varchar | .char => s.compare t
  | .varcharIgnoreCase => s.compareIgnoringCase t

def lobOrder (k : LobKind) (l r : Lob) : Ordering :=
  match k with
  | .clob => l.text.compare r.text
  | .blob => Bytes.compare l.data r.data

def elementOrder (order : Value → Value → Outcome Ordering) :
    List Value → List Value → Outcome Ordering
  | [], [] => .ok .eq
  | [], _ :: _ => .ok .lt
  | _ :: _, [] => .ok .gt
  | a :: s, b :: t => do
    match ← order a b with
    | .eq => elementOrder order s t
    | found => return found

def sameKind (elements : List Value → List Value → Outcome Ordering) (l r : Value) :
    Outcome Ordering :=
  match l, r with
  | .null, .null => .ok .eq
  | .boolean a, .boolean b => .ok (Ord.compare a.toNat b.toNat)
  | .integer j a, .integer k b => if j = k then .ok (Ord.compare a.val b.val) else mismatch l r
  | .numeric a, .numeric b => .ok (a.compare b)
  | .float j a, .float k b => if j = k then .ok (a.compare b) else mismatch l r
  | .date a, .date b => .ok (Ord.compare a.val b.val)
  | .time a, .time b => .ok (Ord.compare a b)
  | .timeTz a o, .timeTz b p =>
    .ok (instantOrder (a - o.val * nanosPerSecond) (b - p.val * nanosPerSecond) o.val p.val)
  | .timestamp d a, .timestamp e b => .ok ((Ord.compare d.val e.val).then (Ord.compare a b))
  | .timestampTz d a o, .timestampTz e b p =>
    .ok (instantOrder (utcNanos d.val a o.val) (utcNanos e.val b p.val) o.val p.val)
  | .varbinary a, .varbinary b => .ok (Bytes.compare a b)
  | .string j s, .string k t => if j = k then .ok (stringOrder j s t) else mismatch l r
  | .lob a, .lob b => if a.kind = b.kind then .ok (lobOrder a.kind a b) else mismatch l r
  | .array a, .array b => elements a b
  | .row a, .row b => if a.length = b.length then elements a b else widthMismatch
  | .resultSet _ _ _, .resultSet _ _ _ => do return (← l.text).compare (← r.text)
  | .object a _, .object b _ => .ok (Bytes.compare a b)
  | .uuid a, .uuid b => .ok (a.compare b)
  | .geometry a, .geometry b => .ok (Bytes.compare a.data b.data)
  | .enum a, .enum b => .ok (Ord.compare a.ordinal b.ordinal)
  | .json a, .json b => .ok (Bytes.compare a b)
  | .interval p a, .interval q b =>
    if p = q then .ok (Ord.compare (a.toAbsolute p) (b.toAbsolute q)) else mismatch l r
  | _, _ => mismatch l r

end Datum.Compare
