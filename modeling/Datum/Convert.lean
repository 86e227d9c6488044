import Datum.Convert.Binary
import Datum.Convert.Extended
import Datum.Convert.Interval
import Datum.Convert.Temporal
import Datum.Result
import Datum.Session

/-!
# Conversion

A value of any kind is converted to any kind: by a rule of the two kinds, or through its text where
the target has literals. NULL stays NULL, and a value of the target kind stays as it is unless the
target has a domain or a constraint.
-/

set_option autoImplicit false

namespace Datum

namespace Convert

def toArray (v : Value) : Outcome Value := do
  match v with
  | .row items => return .array items
  | .lob _ | .resultSet _ _ _ => return .array [.string .varchar (← v.text)]
  | v => return .array [v]

def toRow (v : Value) : Outcome Value :=
  match v with
  | .resultSet _ _ [] => .ok .null
  | .resultSet _ _ [fields] => .ok (.row fields)
  | .resultSet _ _ _ => fail .scalarCardinality
  | v => .ok (.row [v])

def rowColumns : Nat → List Value → List Column
  | _, [] => []
  | n, v :: rest => ⟨("C" : Text) ++ Text.ofNat n, v.type⟩ :: rowColumns (n + 1) rest

def toResultSet (v : Value) (mark : Nat) : Value :=
  match v with
  | .row items => .resultSet mark (rowColumns 1 items) [items]
  | v => .resultSet mark [⟨"X", v.type⟩] [[v]]

def byRule (v : Value) (target : Kind) (c : ConvertContext) : Outcome Value :=
  match target with
  | .null => .ok .null
  | .boolean => toBoolean v
  | .integer k => toInteger v k c.column
  | .numeric => toNumeric v
  | .float k => toFloat v k
  | .date => toDate v c.session
  | .time => toTime v c.session
  | .timeTz => toTimeTz v c.session
  | .timestamp => toTimestamp v c.session
  | .timestampTz => toTimestampTz v c.session
  | .varbinary => toBytes v
  | .string k => do return .ofText k (← v.text)
  | .lob k => toLob v k c.store
  | .array => toArray v
  | .row => toRow v
  | .resultSet => .ok (toResultSet v c.mark)
  | .javaObject => toObject v
  | .uuid => toUuid v
  | .geometry => toGeometry v c.codec c.extension
  | .enum => toEnum v c.extension
  | .json => toJson v
  | .interval q => toInterval v q c.column

def needsRule (v : Value) (target : Kind) : Bool := !v.isNull && v.kind != target

/-- What the store is asked to keep during a conversion. -/
def lobCalls (v : Value) (target : Kind) : List (LobKind × Bytes) :=
  match target with
  | .lob k =>
    if needsRule v target then
      match lobBytes v k with
      | .ok data => [(k, data)]
      | .error _ => []
    else []
  | _ => []

end Convert

def convert (v : Value) (target : Kind) (c : ConvertContext) : Outcome Value :=
  if v.isNull then .ok v
  else if v.kind = target then
    match c.extension with
    | none => .ok v
    | some e => e.cast v
  else Convert.byRule v target c

end Datum
