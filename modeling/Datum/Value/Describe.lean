import Datum.Value.Text

/-!
# Properties of values

The type, the footprint, the sign, the hash and the equality of values. Hashes are signed 32-bit
integers: each step multiplies by 31 and adds, modulo `2 ^ 32`.
-/

set_option autoImplicit false

namespace Datum

namespace Hash

def wrap (n : Int) : Int := Int.bmod n 0x100000000

def step (h : Int) (part : Int) : Int := wrap (h * 31 + part)

/-- A step whose part may be any integer; the sum is rounded to 53 bits before it is cut. -/
def mix (h part : Int) : Int := wrap (Number.round53 (wrap (h * 31) + part))

def combine (parts : List Int) : Int := parts.foldl mix 17

def text (t : Text) : Int := t.foldl (fun h u => step h u.toNat) 0

def bytes (b : Bytes) : Int := b.foldl (fun h x => step h x.toNat) 1

def word (n : Nat) : Int := wrap ((n % 0x100000000) ^^^ (n / 0x100000000 % 0x100000000) : Nat)

/-- Integers are taken modulo `2 ^ 64`. -/
def int (n : Int) : Int := word (n.emod 0x10000000000000000).toNat

def double (x : Double) : Int := word x.toBits

end Hash

/-- Equal decimals have equal hashes; `1.0` and `1.00` are not equal. -/
def Decimal.hash (d : Decimal) : Int := Hash.wrap (31 * Hash.text (Text.ofInt d.unscaled) + d.scale)

def Uuid.hash (u : Uuid) : Int := Hash.word (u.high ^^^ u.low).toNat

namespace Value

def fractionScale (nanos : Int) : Nat :=
  let fraction := nanos.tmod nanosPerSecond
  if fraction = 0 then 0 else (Calendar.fractionDigits fraction).length

def timeType (kind : Kind) (width : Int) (nanos : Int) : TypeInfo :=
  let scale := fractionScale nanos
  .plain kind (width + if 0 < scale then (scale : Int) + 1 else 0) scale

def decimalType (d : Decimal) : TypeInfo := .plain .numeric (max d.precision d.scale : Nat) d.scale

def enumType (d : EnumDomain) : TypeInfo :=
  .extended .enum (d.labels.foldl (fun width label => max width label.length) 0 : Nat) (.enum d)

def geometryType (g : Geometry) : TypeInfo :=
  .extended .geometry g.data.length (.geometry ⟨some g.header.typeCode, some g.header.srid⟩)

def intervalType (q : Qualifier) (f : IntervalFields) : TypeInfo :=
  .plain (.interval q) (max (Text.ofInt f.leading).length 2 : Nat)
    (if q.endsInSecond then fractionScale f.remainder else 0)

def type (v : Value) : TypeInfo :=
  match v with
  | .null | .boolean _ | .integer _ _ | .float _ _ | .date _ | .resultSet _ _ _ | .uuid _ =>
    .ofKind v.kind
  | .numeric d => decimalType d
  | .time nanos => timeType v.kind 8 nanos
  | .timeTz nanos _ => timeType v.kind 14 nanos
  | .timestamp _ nanos => timeType v.kind 19 nanos
  | .timestampTz _ nanos _ => timeType v.kind 25 nanos
  | .varbinary data | .object data _ | .json data => .plain v.kind data.length 0
  | .string _ t => .plain v.kind t.length 0
  | .lob l => .plain v.kind l.length 0
  | .array items | .row items => .plain v.kind items.length 0
  | .geometry g => geometryType g
  | .enum e => enumType e.domain
  | .interval q f => intervalType q f

mutual

def memory : Value → Nat
  | .numeric d => 72 + d.precision
  | .varbinary data => 24 + data.length
  | .string _ t => 24 + 2 * t.length
  | .lob l => 48 + l.data.length
  | .array items => 72 + memories items
  | .row items => 72 + memories items
  | .object data _ => 40 + data.length
  | .uuid _ => 32
  | .geometry g => 40 + g.data.length
  | .json data => 24 + data.length
  | .interval _ _ => 48
  | _ => 24

def memories : List Value → Nat
  | [] => 0
  | v :: rest => memory v + memories rest

end

def signum (v : Value) : Outcome Int :=
  match v with
  | .boolean b => .ok (if b then 1 else 0)
  | .integer _ n => .ok n.val.sign
  | .numeric d => .ok d.signum
  | .float _ x => .ok x.signum
  | .enum e => .ok (e.ordinal : Int).sign
  | .interval _ f => .ok f.signum
  | _ => fail (.unsupported v.kind "SIGNUM")

def fitsPrecision (v : Value) (precision : Num) : Bool := v.type.precision.le precision

def intervalHash (q : Qualifier) (f : IntervalFields) : Int :=
  Hash.combine
    [Hash.text q.name, if f.negative then 1 else 0, Hash.int f.leading, Hash.int f.remainder]

mutual

def hash : Value → Outcome Int
  | .null => .ok 0
  | .boolean b => .ok (if b then 1231 else 1237)
  | .integer .bigint n => .ok (Hash.int n.val)
  | .integer _ n => .ok n.val
  | .numeric d => .ok d.hash
  | .float _ x => .ok (Hash.double x)
  | .date day => .ok (Hash.wrap day.val)
  | .time nanos => .ok (Hash.int nanos)
  | .timeTz nanos offset => .ok (Hash.combine [Hash.int nanos, offset.val])
  | .timestamp day nanos => .ok (Hash.combine [Hash.wrap day.val, Hash.int nanos])
  | .timestampTz day nanos offset =>
    .ok (Hash.combine [Hash.wrap day.val, Hash.int nanos, offset.val])
  | .varbinary data => .ok (Hash.bytes data)
  | .string _ t => .ok (Hash.text t)
  | .lob l => .ok (Hash.bytes l.data)
  | .array items => do return Hash.combine (← hashes items)
  | .row items => do return Hash.combine (← hashes items)
  | .resultSet mark columns rows => do return Hash.text (← text (.resultSet mark columns rows))
  | .object data _ => .ok (Hash.bytes data)
  | .uuid u => .ok u.hash
  | .geometry g => .ok (Hash.bytes g.data)
  | .enum e => .ok (Hash.combine [Hash.text e.label, e.ordinal])
  | .json data => .ok (Hash.bytes data)
  | .interval q f => .ok (intervalHash q f)

def hashes : List Value → Outcome (List Int)
  | [] => .ok []
  | v :: rest => do return (← hash v) :: (← hashes rest)

end

mutual

/-- Equality without conversion. A result equals only itself, and of an object, a geometry or an
enumerator only the bytes, or the label and the ordinal, count. -/
def equals : Value → Value → Bool
  | .null, .null => true
  | .boolean a, .boolean b => a == b
  | .integer j a, .integer k b => j == k && a.val == b.val
  | .numeric a, .numeric b => a == b
  | .float j a, .float k b => j == k && a == b
  | .date a, .date b => a.val == b.val
  | .time a, .time b => a == b
  | .timeTz a o, .timeTz b p => a == b && o.val == p.val
  | .timestamp d a, .timestamp e b => d.val == e.val && a == b
  | .timestampTz d a o, .timestampTz e b p => d.val == e.val && a == b && o.val == p.val
  | .varbinary a, .varbinary b => a == b
  | .string j a, .string k b => j == k && a == b
  | .lob a, .lob b => a == b
  | .array a, .array b => allEqual a b
  | .row a, .row b => allEqual a b
  | .resultSet m _ _, .resultSet n _ _ => m == n
  | .object a _, .object b _ => a == b
  | .uuid a, .uuid b => a == b
  | .geometry a, .geometry b => a.data == b.data
  | .enum a, .enum b => a.ordinal == b.ordinal && a.label == b.label
  | .json a, .json b => a == b
  | .interval p a, .interval q b => p == q && a == b
  | _, _ => false

def allEqual : List Value → List Value → Bool
  | [], [] => true
  | a :: s, b :: t => equals a b && allEqual s t
  | _, _ => false

end

end Value

end Datum
