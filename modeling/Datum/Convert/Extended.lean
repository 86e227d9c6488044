import Datum.Convert.Number

/-!
# Conversion to enumerators and geometries

The target is a domain or a constraint, and a codec reads geometries.
-/

set_option autoImplicit false

namespace Datum

def EnumDomain.cast (d : EnumDomain) (v : Value) : Outcome Value := do
  match v with
  | .null => return .null
  | .enum e => if e.domain = d then return v else return .enum (← d.lookup (.label e.label) .enum)
  | .string _ t => return .enum (← d.lookup (.label t) v.kind)
  | .integer _ n => return .enum (← d.lookup (.ordinal (.int n.val)) v.kind)
  | v => Convert.unsupported v .enum []

def GeometryConstraint.cast (c : GeometryConstraint) (v : Value) : Outcome Value := do
  match v with
  | .null => return .null
  | .geometry g => return .geometry (← c.check g)
  | v => Convert.unsupported v .geometry []

def Extension.cast : Extension → Value → Outcome Value
  | .enum d, v => d.cast v
  | .geometry c, v => c.cast v

namespace Convert

def enumOf (v : Value) (d : EnumDomain) : Outcome Value := do
  match v with
  | .integer _ _ | .numeric _ =>
    let n ← integerOf v .integer []
    let ordinal ← narrow .integer n []
    return .enum (← d.lookup (.ordinal (.int ordinal)) v.kind)
  | .string _ t => return .enum (← d.lookup (.label t) v.kind)
  | .object _ (.text t) => return .enum (← d.lookup (.label t) v.kind)
  | .object _ (.number n) =>
    if n.toInt?.isSome then return .enum (← d.lookup (.ordinal n) v.kind)
    else unsupported v .enum []
  | v => unsupported v .enum []

def toEnum (v : Value) (e : Option Extension) : Outcome Value :=
  match e with
  | some (.enum d) => enumOf v d
  | _ => unsupported v .enum "no ENUM domain given"

def constraint? : Option Extension → Option GeometryConstraint
  | some (.geometry c) => some c
  | _ => none

/-- A failure to read bytes or JSON is one of conversion, with the failure as its detail. -/
def readGeometry (v : Value) (read : Outcome Geometry) : Outcome Value :=
  match read with
  | .ok g => .ok (.geometry g)
  | .error f => unsupported v .geometry f.detail

/-- An error of the library stays; after any other failure the text counts as no literal. -/
def readGeometryText (v : Value) (read : Outcome Geometry) : Outcome Value :=
  match read with
  | .ok g => .ok (.geometry g)
  | .error (.value e) => fail e
  | .error _ => malformed v .geometry

def decodeGeometry (v : Value) (codec : GeometryCodec) (c : Option GeometryConstraint) :
    Outcome Value :=
  match v with
  | .object _ _ | .timestampTz _ _ _ => unsupported v .geometry []
  | .varbinary data => readGeometry v (Geometry.ofBytes codec data)
  | .json data =>
    let srid := (c.bind (·.srid)).getD (.int 0)
    readGeometry v (do Geometry.ofBytes codec (← codec.ofGeoJson data srid))
  | v => readGeometryText v (do Geometry.ofText codec (← v.text))

def geometryOf (v : Value) (codec : Option GeometryCodec) (c : Option GeometryConstraint) :
    Outcome Value :=
  match v with
  | .object _ (.value (.geometry g)) => .ok (.geometry g)
  | v =>
    match codec with
    | none => unsupported v .geometry "no geometry codec configured"
    | some codec => decodeGeometry v codec c

def toGeometry (v : Value) (codec : Option GeometryCodec) (e : Option Extension) :
    Outcome Value := do
  let g ← geometryOf v codec (constraint? e)
  match constraint? e with
  | some c => c.cast g
  | none => return g

end Convert

end Datum
