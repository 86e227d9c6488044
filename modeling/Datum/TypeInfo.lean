import Datum.EnumDomain
import Datum.Geometry

/-!
# Type descriptions

A type has a kind, a precision and a scale, and for enumerators and geometries an extension. Two
types have a common type, that of the higher kind.
-/

set_option autoImplicit false

namespace Datum

inductive Extension where
  | enum (d : EnumDomain)
  | geometry (c : GeometryConstraint)
  deriving DecidableEq

namespace Extension

def sql : Extension → Text
  | .enum d => d.sql
  | .geometry c => c.sql

def same : Extension → Extension → Bool
  | .enum d, .enum e => d == e
  | .geometry c, .geometry d => c.same d
  | _, _ => false

end Extension

structure TypeInfo where
  kind : OperandKind
  precision : Num
  scale : Num
  extension : Option Extension
  deriving DecidableEq

/-- The higher of two kinds, to which an operand of the other kind is converted. Of two operands
without a kind of their own nothing can be said. -/
def higherKind (a b : OperandKind) : Outcome Kind :=
  match a, b with
  | none, none => fail (.unknownPair a b)
  | none, some .null => fail (.unknownPair a b)
  | some .null, none => fail (.unknownPair a b)
  | none, some k => .ok k
  | some k, none => .ok k
  | some j, some k => .ok (if k.rank ≤ j.rank then j else k)

namespace TypeInfo

def maxNumericPrecision : Int := 100000

def maxStringLength : Int := 1000000000

def maxArrayLength : Int := 65536

def maxColumns : Int := 16384

def defaults : Kind → Int × Int
  | .null | .boolean => (1, 0)
  | .integer .tinyint => (3, 0)
  | .integer .smallint => (5, 0)
  | .integer .integer => (10, 0)
  | .integer .bigint => (19, 0)
  | .numeric => (maxNumericPrecision, 0)
  | .float .real => (7, 0)
  | .float .double => (17, 0)
  | .time => (18, 9)
  | .timeTz => (24, 9)
  | .date => (10, 0)
  | .timestamp => (29, 9)
  | .timestampTz => (35, 9)
  | .varbinary | .string _ | .javaObject | .enum | .json => (maxStringLength, 0)
  | .lob _ | .geometry | .resultSet => (Num.maxSafe, 0)
  | .uuid => (16, 0)
  | .array => (maxArrayLength, 0)
  | .row => (maxColumns, 0)
  | .interval q => (18, if q.endsInSecond then 9 else 0)

def plain (kind : Kind) (precision scale : Int) : TypeInfo :=
  ⟨some kind, .int precision, .int scale, none⟩

def extended (kind : Kind) (precision : Int) (e : Extension) : TypeInfo :=
  ⟨some kind, .int precision, .int 0, some e⟩

def ofKind (k : Kind) : TypeInfo := plain k (defaults k).1 (defaults k).2

def unknown : TypeInfo := ⟨none, .int (-1), .int (-1), none⟩

def sized (name : Text) (n : Num) : Text := name ++ ("(" : Text) ++ n.text ++ (")" : Text)

/-- The type in SQL, such as `NUMERIC(10, 2)`. -/
def sql (t : TypeInfo) : Text :=
  match t.extension with
  | some e => e.sql
  | none =>
    match t.kind with
    | none => "UNKNOWN"
    | some .numeric =>
      ("NUMERIC(" : Text) ++ t.precision.text ++ (", " : Text) ++ t.scale.text ++ (")" : Text)
    | some (.string k) => sized k.name t.precision
    | some .varbinary => sized "VARBINARY" t.precision
    | some .time => sized "TIME" t.scale
    | some .timestamp => sized "TIMESTAMP" t.scale
    | some .timeTz => sized "TIME" t.scale ++ (" WITH TIME ZONE" : Text)
    | some .timestampTz => sized "TIMESTAMP" t.scale ++ (" WITH TIME ZONE" : Text)
    | some (.float .double) => "DOUBLE PRECISION"
    | some (.interval q) => ("INTERVAL " : Text) ++ q.sql
    | some k => k.name

def sameExtension : Option Extension → Option Extension → Bool
  | none, none => true
  | some a, some b => a.same b
  | _, _ => false

def same (s t : TypeInfo) : Bool :=
  s.kind == t.kind && s.precision.sameNumber t.precision && s.scale.sameNumber t.scale
    && sameExtension s.extension t.extension

/-- The extension of the type that results from two: that of the operand whose kind won, the first
before the second. -/
def higherExtension (kind : Kind) (s t : TypeInfo) : Option Extension :=
  if s.kind = some kind && s.extension.isSome then s.extension
  else if t.kind = some kind then t.extension
  else none

def higher (s t : TypeInfo) : Outcome TypeInfo := do
  let kind ← higherKind s.kind t.kind
  return ⟨some kind, s.precision.max t.precision, s.scale.max t.scale, higherExtension kind s t⟩

end TypeInfo

end Datum
