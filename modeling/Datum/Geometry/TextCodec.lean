import Datum.Geometry
import Datum.Json.Document
import Datum.Text.Utf8

/-!
# A codec of plain geometry text

The bytes of a geometry are the UTF-8 of its text, such as `SRID=4326;POINT (1 2)`, of which only
the beginning is looked at. Points, lines and polygons are known. The codec comes in styles that
differ in how a failure is raised.
-/

set_option autoImplicit false

namespace Datum.GeometryCodec

open Text (unit)

inductive Style where
  | plain
  | strict
  | raw
  /-- As in `plain`; GeoJSON is never written. -/
  | noGeoJson
  deriving DecidableEq

def Style.raise (style : Style) (f : Fault) : Fault :=
  match style with
  | .strict => .value (.invalidValue "geometry" f.detail)
  | .raw => .foreignText f.detail
  | .plain | .noGeoJson => f

def sridPart? (t : Text) : Option (Num × Text) := do
  let rest ← Text.stripStart? "SRID=" t
  let (digits, rest) := Text.spanDigits rest
  if digits.isEmpty then none
  else
    let rest ← Text.stripStart? ";" rest
    return (Num.ofDouble (Double.ofInt (Text.digitsValue digits)), rest)

def startsWithWord (word t : Text) : Bool :=
  match Text.stripStart? word t with
  | none => false
  | some [] => true
  | some (u :: _) => !Text.isWordUnit u

def typePart? (t : Text) : Option Num :=
  if startsWithWord "POINT" t then some (.int 1)
  else if startsWithWord "LINESTRING" t then some (.int 2)
  else if startsWithWord "POLYGON" t then some (.int 3)
  else none

def header? (t : Text) : Option GeometryHeader :=
  let (srid, rest) := (sridPart? t).getD (.int 0, t)
  (typePart? rest).map fun code => ⟨srid, code, .xy⟩

def headerOf (t : Text) : Outcome GeometryHeader :=
  match header? t with
  | some h => .ok h
  | none => .error (.foreign (("not a geometry: " : Text) ++ t))

def jsonNumber (n : Num) : Text := if n.toDouble.isFinite then n.text else "null"

def geoJson (h : GeometryHeader) : Text :=
  let type : Text := if h.typeCode = .int 1 then "Point" else "Other"
  ("\x7b\"type\":" : Text) ++ Json.quote type ++ (",\"srid\":" : Text) ++ jsonNumber h.srid
    ++ ("\x7d" : Text)

/-- The only GeoJSON that is read is a point, and its coordinates are ignored. -/
def ofPoint (json : Bytes) (srid : Num) : Outcome Bytes :=
  let t := Text.Utf8.decode json
  match Json.parse? t with
  | none => .error (.notJson t)
  | some document =>
    match document.field? "type" with
    | some (.text type) =>
      if type = ("Point" : Text) then
        let start : Text :=
          if srid.sameNumber (.int 0) then [] else ("SRID=" : Text) ++ srid.text ++ (";" : Text)
        .ok (Text.Utf8.encode (start ++ ("POINT EMPTY" : Text)))
      else .error (.foreign "unsupported GeoJSON")
    | _ => .error (.foreign "unsupported GeoJSON")

def ofText (style : Style) : GeometryCodec where
  header data := (headerOf (Text.Utf8.decode data)).mapError style.raise
  parse t := ((headerOf t).map fun _ => Text.Utf8.encode t).mapError style.raise
  text data := .ok (Text.Utf8.decode data)
  toGeoJson data _ :=
    if style = .noGeoJson then .error (.foreign "no GeoJSON encoder")
    else
      ((headerOf (Text.Utf8.decode data)).map fun h => Text.Utf8.encode (geoJson h)).mapError
        style.raise
  ofGeoJson json srid := (ofPoint json srid).mapError style.raise

end Datum.GeometryCodec
