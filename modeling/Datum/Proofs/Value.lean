import Datum.Value.Describe

/-!
# Kinds of values

The kind of each form of value, what the kind says about NULL, and when two values of one kind are
equal.
-/

set_option autoImplicit false

namespace Datum.Value

@[simp] theorem kind_null : kind .null = .null := rfl

@[simp] theorem kind_boolean (b : Bool) : (boolean b).kind = .boolean := rfl

@[simp] theorem kind_integer (k : IntegerKind) (n : Whole) : (integer k n).kind = .integer k := rfl

@[simp] theorem kind_numeric (d : Decimal) : (numeric d).kind = .numeric := rfl

@[simp] theorem kind_float (k : FloatKind) (x : Double) : (float k x).kind = .float k := rfl

@[simp] theorem kind_date (day : Whole) : (date day).kind = .date := rfl

@[simp] theorem kind_time (nanos : Int) : (time nanos).kind = .time := rfl

@[simp] theorem kind_timeTz (nanos : Int) (offset : Whole) :
    (timeTz nanos offset).kind = .timeTz := rfl

@[simp] theorem kind_timestamp (day : Whole) (nanos : Int) :
    (timestamp day nanos).kind = .timestamp := rfl

@[simp] theorem kind_timestampTz (day : Whole) (nanos : Int) (offset : Whole) :
    (timestampTz day nanos offset).kind = .timestampTz := rfl

@[simp] theorem kind_varbinary (data : Bytes) : (varbinary data).kind = .varbinary := rfl

@[simp] theorem kind_string (k : StringKind) (t : Text) : (string k t).kind = .string k := rfl

@[simp] theorem kind_lob (l : Lob) : (lob l).kind = .lob l.kind := rfl

@[simp] theorem kind_array (items : List Value) : (array items).kind = .array := rfl

@[simp] theorem kind_row (items : List Value) : (row items).kind = .row := rfl

@[simp] theorem kind_resultSet (mark : Nat) (columns : List Column) (rows : List (List Value)) :
    (resultSet mark columns rows).kind = .resultSet := rfl

@[simp] theorem kind_object (data : Bytes) (held : Held Value) :
    (object data held).kind = .javaObject := rfl

@[simp] theorem kind_uuid (u : Uuid) : (uuid u).kind = .uuid := rfl

@[simp] theorem kind_geometry (g : Geometry) : (geometry g).kind = .geometry := rfl

@[simp] theorem kind_enum (e : Enumerator) : (enum e).kind = .enum := rfl

@[simp] theorem kind_json (data : Bytes) : (json data).kind = .json := rfl

@[simp] theorem kind_interval (q : Qualifier) (f : IntervalFields) :
    (interval q f).kind = .interval q := rfl

theorem isNull_iff {v : Value} : v.isNull = true ↔ v = .null := by
  cases v <;> simp [isNull]

theorem isNull_of_kind {v : Value} (h : v.kind ≠ .null) : v.isNull = false := by
  cases v <;> simp_all [isNull]

@[simp] theorem equals_boolean (a b : Bool) : (boolean a).equals (boolean b) = (a == b) := rfl

@[simp] theorem equals_integer (j k : IntegerKind) (m n : Whole) :
    (integer j m).equals (integer k n) = (j == k && m.val == n.val) := rfl

@[simp] theorem equals_numeric (a b : Decimal) : (numeric a).equals (numeric b) = (a == b) := rfl

@[simp] theorem equals_date (d e : Whole) : (date d).equals (date e) = (d.val == e.val) := rfl

@[simp] theorem equals_time (m n : Int) : (time m).equals (time n) = (m == n) := rfl

@[simp] theorem equals_timeTz (m n : Int) (o p : Whole) :
    (timeTz m o).equals (timeTz n p) = (m == n && o.val == p.val) := rfl

@[simp] theorem equals_timestamp (d e : Whole) (m n : Int) :
    (timestamp d m).equals (timestamp e n) = (d.val == e.val && m == n) := rfl

@[simp] theorem equals_timestampTz (d e : Whole) (m n : Int) (o p : Whole) :
    (timestampTz d m o).equals (timestampTz e n p)
      = (d.val == e.val && m == n && o.val == p.val) := rfl

@[simp] theorem equals_uuid (u v : Uuid) : (uuid u).equals (uuid v) = (u == v) := rfl

@[simp] theorem equals_enum (e f : Enumerator) :
    (enum e).equals (enum f) = (e.ordinal == f.ordinal && e.label == f.label) := rfl

@[simp] theorem equals_interval (p q : Qualifier) (f g : IntervalFields) :
    (interval p f).equals (interval q g) = (p == q && f == g) := rfl

end Datum.Value
