import Datum.Json.Document
import Datum.Value

/-!
# Plain forms of values

The plain data that a value stands for: truth values, numbers, texts, bytes, lists and records. The
plain form of a JSON value is its document, with numbers as doubles.
-/

set_option autoImplicit false

namespace Datum

inductive Native where
  | null
  | bool (b : Bool)
  | number (x : Double)
  | integer (n : Int)
  | decimal (d : Decimal)
  | text (t : Text)
  | bytes (data : Bytes)
  | value (v : Value)
  | list (items : List Native)
  | record (fields : List (Text × Native))
  /-- The rows of a result, of which only the extent is shown. -/
  | result (columns rows : Nat)

namespace Native

mutual

def ofDocument : Json.Document → Native
  | .null => .null
  | .bool b => .bool b
  | .number x => .number x
  | .text t => .text t
  | .list items => .list (ofItems items)
  | .record fields => .record (ofFields fields)

def ofItems : List Json.Document → List Native
  | [] => []
  | d :: rest => ofDocument d :: ofItems rest

def ofFields : List (Text × Json.Document) → List (Text × Native)
  | [] => []
  | (name, d) :: rest => (name, ofDocument d) :: ofFields rest

end

def ofWhole (n : Whole) : Native := .number n.toDouble

def ofJsonText (t : Text) : Outcome Native :=
  match Json.parse? t with
  | some d => .ok (ofDocument d)
  | none => .error (.notJson t)

end Native

def Value.native : Value → Outcome Native
  | .null => .ok .null
  | .boolean b => .ok (.bool b)
  | .integer .bigint n => .ok (.integer n.val)
  | .integer _ n => .ok (.ofWhole n)
  | .numeric d => .ok (.decimal d)
  | .float _ x => .ok (.number x)
  | .date day => .ok (.ofWhole day)
  | .time nanos => .ok (.integer nanos)
  | .timeTz nanos offset =>
    .ok (.record [("nanos", .integer nanos), ("offsetSeconds", .ofWhole offset)])
  | .timestamp day nanos =>
    .ok (.record [("epochDay", .ofWhole day), ("timeNanos", .integer nanos)])
  | .timestampTz day nanos offset =>
    .ok (.record [("epochDay", .ofWhole day), ("offsetSeconds", .ofWhole offset),
      ("timeNanos", .integer nanos)])
  | .varbinary data => .ok (.bytes data)
  | .string _ t => .ok (.text t)
  | .lob ⟨.clob, data⟩ => .ok (.text (Text.Utf8.decode data))
  | .lob ⟨.blob, data⟩ => .ok (.bytes data)
  | .array items => .ok (.list (items.map .value))
  | .row items => .ok (.list (items.map .value))
  | .resultSet _ columns rows => .ok (.result columns.length rows.length)
  | .object data .nothing => .ok (.bytes data)
  | .object _ (.text t) => .ok (.text t)
  | .object _ (.number n) => .ok (.number n.toDouble)
  | .object _ (.value v) => .ok (.value v)
  | .uuid u => .ok (.text u.text)
  | .geometry g => .ok (.bytes g.data)
  | .enum e => .ok (.text e.label)
  | .json data => Native.ofJsonText (Text.Utf8.decode data)
  | .interval _ f =>
    .ok (.record [("leading", .integer f.leading), ("negative", .bool f.negative),
      ("remaining", .integer f.remainder)])

end Datum
