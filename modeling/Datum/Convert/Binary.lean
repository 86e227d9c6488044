import Datum.Convert.Number

/-!
# Conversion to bytes, large objects, objects, UUIDs and JSON
-/

set_option autoImplicit false

namespace Datum.Convert

def textBytes (v : Value) : Outcome Bytes := do return Text.Utf8.encode (← v.text)

def toBytes (v : Value) : Outcome Value := do
  match v with
  | .object data _ | .lob ⟨.blob, data⟩ | .json data => return .varbinary data
  | .geometry g => return .varbinary g.data
  | .uuid u => return .varbinary u.toBytes
  | .integer k n => return .varbinary (Bytes.ofSigned k.width n.val)
  | .enum _ | .timestampTz _ _ _ => unsupported v .varbinary []
  | v => return .varbinary (← textBytes v)

def blobBytes (v : Value) : Outcome Bytes :=
  match v with
  | .varbinary data | .json data => .ok data
  | .geometry g => .ok g.data
  | .uuid u => .ok u.toBytes
  | .timestampTz _ _ _ => unsupported v (.lob .blob) []
  | v => textBytes v

def lobBytes (v : Value) (k : LobKind) : Outcome Bytes :=
  match k with
  | .clob => textBytes v
  | .blob => blobBytes v

def toLob (v : Value) (k : LobKind) (store : LobStore) : Outcome Value := do
  return .lob (store k (← lobBytes v k))

def toObject (v : Value) : Outcome Value := do
  match v with
  | .varbinary data | .lob ⟨.blob, data⟩ => return .object data .nothing
  | .geometry g => return .object g.data (.value v)
  | .enum _ | .timestampTz _ _ _ => unsupported v .javaObject []
  | v =>
    match Text.Hex.decode? (← v.text).trim with
    | some data => return .object data .nothing
    | none => malformed v .javaObject

def toUuid (v : Value) : Outcome Value := do
  match v with
  | .varbinary data =>
    match Uuid.ofBytes? data with
    | some u => return .uuid u
    | none => unsupported v .uuid (Text.ofNat data.length ++ (" bytes" : Text))
  | .object _ (.value (.uuid u)) => return .uuid u
  | .object _ (.text t) =>
    match Uuid.parse? t with
    | some u => return .uuid u
    | none => unsupported v .uuid []
  | .object _ _ | .timestampTz _ _ _ => unsupported v .uuid []
  | v =>
    match Uuid.parse? (← v.text) with
    | some u => return .uuid u
    | none => malformed v .uuid

def numberToJson (v : Value) : Outcome Value := do
  match exactDecimal? v with
  | some d => return .jsonDecimal d
  | none => unsupported v .json (← v.text)

def bytesToJson (v : Value) (data : Bytes) : Outcome Value :=
  if Json.isValid (Text.Utf8.decode data) then Value.ofJsonBytes data
  else unsupported v .json "invalid JSON text"

/-- What the codec writes for a geometry; any failure is one of conversion. -/
def geometryToJson (v : Value) (g : Geometry) : Outcome Value :=
  match (do Value.ofJsonBytes (← g.codec.toGeoJson g.data g.header.dimension)) with
  | .ok w => .ok w
  | .error f => unsupported v .json f.detail

def toJson (v : Value) : Outcome Value :=
  match v with
  | .boolean b => .ok (.jsonBoolean b)
  | .integer _ n => .ok (.jsonInteger n.val)
  | .float _ _ | .numeric _ => numberToJson v
  | .varbinary data | .lob ⟨.blob, data⟩ => bytesToJson v data
  | .string _ t => .ok (.jsonString t)
  | .lob ⟨.clob, data⟩ => .ok (.jsonString (Text.Utf8.decode data))
  | .geometry g => geometryToJson v g
  | v => unsupported v .json []

end Datum.Convert
