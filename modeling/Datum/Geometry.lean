import Datum.Bytes
import Datum.Failure

/-!
# Geometries

A geometry is a byte string that a codec understands. The codec is a collaborator: each of its
operations may fail in any way. The header of a geometry is read once, when the geometry is made.
-/

set_option autoImplicit false

namespace Datum

inductive Dimension where
  | xy
  | xyz
  | xym
  | xyzm
  deriving DecidableEq

def Dimension.name : Dimension → Text
  | .xy => "XY"
  | .xyz => "XYZ"
  | .xym => "XYM"
  | .xyzm => "XYZM"

/-- What the codec reads from the bytes of a geometry; without a reference system `srid` is 0. -/
structure GeometryHeader where
  srid : Num
  typeCode : Num
  dimension : Dimension
  deriving DecidableEq

structure GeometryCodec where
  /-- Checks the bytes and reads their header. -/
  header : Bytes → Outcome GeometryHeader
  parse : Text → Outcome Bytes
  text : Bytes → Outcome Text
  toGeoJson : Bytes → Dimension → Outcome Bytes
  /-- Geometry bytes of GeoJSON, in a reference system. -/
  ofGeoJson : Bytes → Num → Outcome Bytes

structure Geometry where
  data : Bytes
  header : GeometryHeader
  codec : GeometryCodec

namespace Geometry

def ofBytes (codec : GeometryCodec) (data : Bytes) : Outcome Geometry := do
  return ⟨data, ← codec.header data, codec⟩

def ofText (codec : GeometryCodec) (t : Text) : Outcome Geometry := do
  ofBytes codec (← codec.parse t)

def text (g : Geometry) : Outcome Text := g.codec.text g.data

end Geometry

structure GeometryConstraint where
  typeCode : Option Num
  srid : Option Num
  deriving DecidableEq

namespace GeometryConstraint

def typeName (code : Num) : Text :=
  match code.toInt? with
  | some 1 => "POINT"
  | some 2 => "LINESTRING"
  | some 3 => "POLYGON"
  | some 4 => "MULTIPOINT"
  | some 5 => "MULTILINESTRING"
  | some 6 => "MULTIPOLYGON"
  | some 7 => "GEOMETRYCOLLECTION"
  | _ => ("GEOMETRY TYPE " : Text) ++ code.text

def sql (c : GeometryConstraint) : Text :=
  let type := (c.typeCode.map typeName).getD "GEOMETRY"
  match c.srid with
  | some srid =>
    ("GEOMETRY(" : Text) ++ type ++ (", " : Text) ++ srid.text ++ (")" : Text)
  | none =>
    if c.typeCode.isNone then "GEOMETRY" else ("GEOMETRY(" : Text) ++ type ++ (")" : Text)

def allows (required : Option Num) (n : Num) : Bool :=
  match required with
  | some m => n.sameNumber m
  | none => true

def check (c : GeometryConstraint) (g : Geometry) : Outcome Geometry :=
  if !allows c.typeCode g.header.typeCode then
    fail (.dataConversion .geometry .geometry (("geometry type " : Text)
      ++ typeName g.header.typeCode ++ (" does not match " : Text) ++ c.sql))
  else if !allows c.srid g.header.srid then
    fail (.dataConversion .geometry .geometry (("SRID " : Text) ++ g.header.srid.text
      ++ (" does not match " : Text) ++ c.sql))
  else .ok g

def sameRequirement : Option Num → Option Num → Bool
  | none, none => true
  | some a, some b => a.sameNumber b
  | _, _ => false

def same (c d : GeometryConstraint) : Bool :=
  sameRequirement c.typeCode d.typeCode && sameRequirement c.srid d.srid

end GeometryConstraint

end Datum
