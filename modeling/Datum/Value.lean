import Datum.Bytes
import Datum.Interval.Fields
import Datum.Kind
import Datum.Number.Decimal
import Datum.Text.Utf8
import Datum.TypeInfo

/-!
# Values

The type of values. Its constructors take any payload; the checked ones are in the module of value
construction. A store makes large objects; the default store keeps the bytes as they are.
-/

set_option autoImplicit false

namespace Datum

/-- The bytes of a character object are UTF-8. -/
structure Lob where
  kind : LobKind
  data : Bytes
  deriving DecidableEq

namespace Lob

def ofText (t : Text) : Lob := ⟨.clob, Text.Utf8.encode t⟩

def text (l : Lob) : Text :=
  match l.kind with
  | .clob => Text.Utf8.decode l.data
  | .blob => Text.Hex.encode l.data

def length (l : Lob) : Nat :=
  match l.kind with
  | .clob => l.text.length
  | .blob => l.data.length

end Lob

abbrev LobStore := LobKind → Bytes → Lob

/-- What a serialized object holds when its live form is known. -/
inductive Held (α : Type) where
  | nothing
  | text (t : Text)
  | number (n : Num)
  | value (v : α)
  deriving Inhabited

structure Column where
  name : Text
  type : TypeInfo

/-- Times and dates are nanoseconds of the day, days from 1970-01-01, and offsets in seconds. -/
inductive Value where
  | null
  | boolean (b : Bool)
  | integer (k : IntegerKind) (n : Whole)
  | numeric (d : Decimal)
  | float (k : FloatKind) (x : Double)
  | date (day : Whole)
  | time (nanos : Int)
  | timeTz (nanos : Int) (offset : Whole)
  | timestamp (day : Whole) (nanos : Int)
  | timestampTz (day : Whole) (nanos : Int) (offset : Whole)
  | varbinary (data : Bytes)
  | string (k : StringKind) (t : Text)
  | lob (l : Lob)
  | array (items : List Value)
  | row (items : List Value)
  /-- The mark tells one result from another of the same contents. -/
  | resultSet (mark : Nat) (columns : List Column) (rows : List (List Value))
  | object (data : Bytes) (held : Held Value)
  | uuid (u : Uuid)
  | geometry (g : Geometry)
  | enum (e : Enumerator)
  /-- UTF-8 of a JSON text. -/
  | json (data : Bytes)
  | interval (q : Qualifier) (f : IntervalFields)

namespace Value

instance : Inhabited Value := ⟨.null⟩

def kind : Value → Kind
  | .null => .null
  | .boolean _ => .boolean
  | .integer k _ => .integer k
  | .numeric _ => .numeric
  | .float k _ => .float k
  | .date _ => .date
  | .time _ => .time
  | .timeTz _ _ => .timeTz
  | .timestamp _ _ => .timestamp
  | .timestampTz _ _ _ => .timestampTz
  | .varbinary _ => .varbinary
  | .string k _ => .string k
  | .lob l => .lob l.kind
  | .array _ => .array
  | .row _ => .row
  | .resultSet _ _ _ => .resultSet
  | .object _ _ => .javaObject
  | .uuid _ => .uuid
  | .geometry _ => .geometry
  | .enum _ => .enum
  | .json _ => .json
  | .interval q _ => .interval q

def isNull : Value → Bool
  | .null => true
  | _ => false

def payload? : Value → Option Bytes
  | .varbinary data => some data
  | .lob l => some l.data
  | .object data _ => some data
  | .geometry g => some g.data
  | .json data => some data
  | _ => none

def elements? : Value → Option (List Value)
  | .array items => some items
  | .row items => some items
  | _ => none

mutual

def containsNull : Value → Bool
  | .null => true
  | .array items => anyContainsNull items
  | .row items => anyContainsNull items
  | _ => false

def anyContainsNull : List Value → Bool
  | [] => false
  | v :: rest => containsNull v || anyContainsNull rest

end

mutual

def depth : Value → Nat
  | .array items => depths items + 1
  | .row items => depths items + 1
  | _ => 0

def depths : List Value → Nat
  | [] => 0
  | v :: rest => max (depth v) (depths rest)

end

end Value

end Datum
