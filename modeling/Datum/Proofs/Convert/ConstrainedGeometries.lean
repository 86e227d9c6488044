import Datum.Proofs.Convert.CodecFailures

/-!
# Geometries under a constraint

A column may require a type and a reference system of its geometries. A geometry comes from a value
that is one, from an object that holds one, or from the codec, which reads bytes, GeoJSON in the
reference system of the column, or a text. On each of these ways it is checked against the column at
the end, and its header is what its own codec reads from its bytes.
-/

set_option autoImplicit false

namespace Datum

namespace Geometry

variable {g : Geometry}

/-- A codec has made the geometry of bytes; there is no other way to one. -/
def IsMade (g : Geometry) : Prop := ∃ codec data, ofBytes codec data = .ok g

theorem ofBytes_eq_ok {codec : GeometryCodec} {data : Bytes} :
    ofBytes codec data = .ok g ↔
      ∃ header, codec.header data = .ok header ∧ g = ⟨data, header, codec⟩ := by
  simp only [ofBytes, bind_eq_ok, pure_eq_ok, Except.ok.injEq]
  exact exists_congr fun header => and_congr_right fun _ => eq_comm

theorem isMade_iff : g.IsMade ↔ g.codec.header g.data = .ok g.header := by
  constructor
  · rintro ⟨codec, data, h⟩
    obtain ⟨header, hheader, rfl⟩ := ofBytes_eq_ok.1 h
    exact hheader
  · intro h
    exact ⟨g.codec, g.data, ofBytes_eq_ok.2 ⟨g.header, h, rfl⟩⟩

theorem ofBytes_isMade (codec : GeometryCodec) (data : Bytes) :
    Ensures (ofBytes codec data) IsMade :=
  fun _ h => ⟨codec, data, h⟩

theorem ofText_isMade (codec : GeometryCodec) (t : Text) : Ensures (ofText codec t) IsMade := by
  rw [ofText, ensures_bind]
  exact ensures_of_forall (ofBytes_isMade codec)

end Geometry

namespace GeometryConstraint

variable {required : GeometryConstraint} {g : Geometry}

structure Holds (required : GeometryConstraint) (g : Geometry) : Prop where
  typeCode : ∀ n, required.typeCode = some n → g.header.typeCode.sameNumber n = true
  srid : ∀ n, required.srid = some n → g.header.srid.sameNumber n = true

theorem allows_iff {wanted : Option Num} {n : Num} :
    allows wanted n = true ↔ ∀ m, wanted = some m → n.sameNumber m = true := by
  cases wanted with
  | none => simp [allows]
  | some m => simp [allows]

theorem check_eq_ok {g' : Geometry} : required.check g = .ok g' ↔ required.Holds g ∧ g' = g := by
  have hholds : required.Holds g ↔
      allows required.typeCode g.header.typeCode = true ∧
        allows required.srid g.header.srid = true := by
    rw [allows_iff, allows_iff]
    exact ⟨fun h => ⟨h.typeCode, h.srid⟩, fun h => ⟨h.1, h.2⟩⟩
  rw [hholds, check]
  cases allows required.typeCode g.header.typeCode with
  | false => simp
  | true =>
    cases allows required.srid g.header.srid with
    | false => simp
    | true => simp [eq_comm]

theorem cast_geometry_eq_ok {w : Value} :
    required.cast (.geometry g) = .ok w ↔ required.Holds g ∧ w = .geometry g := by
  simp only [cast, bind_eq_ok, check_eq_ok, pure_eq_ok, Except.ok.injEq]
  constructor
  · rintro ⟨g', ⟨hholds, rfl⟩, rfl⟩
    exact ⟨hholds, rfl⟩
  · rintro ⟨hholds, rfl⟩
    exact ⟨g, ⟨hholds, rfl⟩, rfl⟩

end GeometryConstraint

def Value.geometry? : Value → Option Geometry
  | .geometry g => some g
  | .object _ (.value (.geometry g)) => some g
  | _ => none

namespace Convert

open Value

variable {v w : Value} {codec : GeometryCodec} {required : GeometryConstraint} {g : Geometry}

def Yields (v : Value) (codec : Option GeometryCodec) (required : GeometryConstraint)
    (g : Geometry) : Prop :=
  v.geometry? = some g ∨ v.geometry? = none ∧
    ∃ reader, codec = some reader ∧ codecReading? v reader (some required) = some (.ok g)

theorem codecReading?_isMade (h : codecReading? v codec (some required) = some (.ok g)) :
    g.IsMade := by
  unfold codecReading? at h
  split at h
  · cases h
  · cases h
  · exact Geometry.ofBytes_isMade _ _ _ (Option.some.inj h)
  · obtain ⟨data, -, hdata⟩ := bind_eq_ok.1 (Option.some.inj h)
    exact Geometry.ofBytes_isMade _ _ _ hdata
  · obtain ⟨t, -, ht⟩ := bind_eq_ok.1 (Option.some.inj h)
    exact Geometry.ofText_isMade _ _ _ ht

theorem Yields.isMade {reader : Option GeometryCodec} (h : Yields v reader required g)
    (hmade : ∀ g, v.geometry? = some g → g.IsMade) : g.IsMade := by
  obtain hthere | ⟨-, codec, -, hread⟩ := h
  · exact hmade g hthere
  · exact codecReading?_isMade hread

theorem readGeometry_eq_ok {read : Outcome Geometry} :
    readGeometry v read = .ok w ↔ ∃ g, read = .ok g ∧ w = .geometry g := by
  cases read with
  | ok g => simp [readGeometry, eq_comm]
  | error f => simp [readGeometry, unsupported]

theorem readGeometryText_error_ne_ok (f : Fault) : readGeometryText v (.error f) ≠ .ok w := by
  intro h
  unfold readGeometryText at h
  split at h
  next hread => cases hread
  next => exact fail_ne_ok _ _ h
  next =>
    obtain ⟨t, -, ht⟩ := bind_eq_ok.1 h
    exact fail_ne_ok _ _ ht

theorem readGeometryText_eq_ok {read : Outcome Geometry} :
    readGeometryText v read = .ok w ↔ ∃ g, read = .ok g ∧ w = .geometry g := by
  cases read with
  | ok g => simp [readGeometryText, eq_comm]
  | error f => exact iff_of_false (readGeometryText_error_ne_ok f) (by simp)

theorem decodeGeometry_eq_ok {c : Option GeometryConstraint} :
    decodeGeometry v codec c = .ok w ↔
      ∃ g, codecReading? v codec c = some (.ok g) ∧ w = .geometry g := by
  cases hreading : codecReading? v codec c with
  | none => simp [decodeGeometry_of_none hreading, unsupported]
  | some read =>
    rw [decodeGeometry_of_reading hreading]
    simp only [Option.some.injEq]
    split
    · exact readGeometryText_eq_ok
    · exact readGeometry_eq_ok

theorem geometryOf_of_none {reader : Option GeometryCodec} {c : Option GeometryConstraint}
    (h : v.geometry? = none) : geometryOf v reader c =
      match reader with
      | none => unsupported v .geometry "no geometry codec configured"
      | some codec => decodeGeometry v codec c := by
  unfold geometryOf
  split
  · cases h
  · rfl

theorem geometryOf_eq_ok {reader : Option GeometryCodec} (hkind : v.kind ≠ .geometry) :
    geometryOf v reader (some required) = .ok w ↔
      ∃ g, Yields v reader required g ∧ w = .geometry g := by
  cases hthere : v.geometry? with
  | some found =>
    have hof : geometryOf v reader (some required) = .ok (.geometry found) := by
      unfold geometry? at hthere
      split at hthere
      · exact absurd rfl hkind
      · cases hthere
        rfl
      · cases hthere
    simp [hof, Yields, hthere, eq_comm]
  | none =>
    rw [geometryOf_of_none hthere]
    cases reader with
    | none => simp [Yields, hthere, unsupported]
    | some codec => simp [Yields, hthere, decodeGeometry_eq_ok]

theorem convert_constrained {c : ConvertContext} (hext : c.extension = some (.geometry required))
    (hnull : v.isNull = false) : convert v .geometry c = .ok w ↔
      ∃ g, Yields v c.codec required g ∧ required.Holds g ∧ w = .geometry g := by
  by_cases hkind : v.kind = .geometry
  -- A geometry is cast without a rule of conversion.
  · cases v with
    | geometry found =>
      have hcast : convert (.geometry found) .geometry c = required.cast (.geometry found) := by
        simp only [convert, hnull, hext, kind_geometry, Extension.cast]
        rfl
      simp [hcast, GeometryConstraint.cast_geometry_eq_ok, Yields, geometry?]
    | _ => cases hkind
  · rw [convert_eq_byRule hnull hkind]
    simp only [byRule, toGeometry, hext, constraint?, bind_eq_ok, geometryOf_eq_ok hkind]
    constructor
    · rintro ⟨_, ⟨g, hyields, rfl⟩, hcast⟩
      exact ⟨g, hyields, GeometryConstraint.cast_geometry_eq_ok.1 hcast⟩
    · rintro ⟨g, hyields, hcast⟩
      exact ⟨_, ⟨g, hyields, rfl⟩, GeometryConstraint.cast_geometry_eq_ok.2 hcast⟩

/-- Whatever a value is and whatever its codec does, what comes out of a conversion to a constrained
column is NULL or a geometry of the required type and reference system, and its header is what its
own codec reads from its bytes. Every geometry that a way leads to and that meets the constraint
does come out. -/
theorem constrained_geometry {c : ConvertContext} (hext : c.extension = some (.geometry required))
    (hmade : ∀ g, v.geometry? = some g → g.IsMade) :
    (∀ w, convert v .geometry c = .ok w → w.isNull = false → ∃ g, w = .geometry g ∧
      (∀ n, required.typeCode = some n → g.header.typeCode.sameNumber n = true) ∧
      (∀ n, required.srid = some n → g.header.srid.sameNumber n = true) ∧
      g.codec.header g.data = .ok g.header) ∧
    ∀ g, v.isNull = false → Yields v c.codec required g → required.Holds g →
      convert v .geometry c = .ok (.geometry g) := by
  refine ⟨fun w hw hnull => ?_, fun g hnull hyields hholds => ?_⟩
  · have hsource : v.isNull = false := by
      cases hv : v.isNull with
      | false => rfl
      | true =>
        rw [convert, if_pos hv] at hw
        cases hw
        exact absurd hv (by simp [hnull])
    obtain ⟨g, hyields, hholds, rfl⟩ := (convert_constrained hext hsource).1 hw
    exact ⟨g, rfl, hholds.typeCode, hholds.srid, Geometry.isMade_iff.1 (hyields.isMade hmade)⟩
  · exact (convert_constrained hext hnull).2 ⟨g, hyields, hholds, rfl⟩

/-- A column of points in one reference system takes a GeoJSON point, which is read in it, and an
object that holds this point even without a codec. -/
theorem constrained_geometry_of_point :
    let required : GeometryConstraint := ⟨some (.int 1), some (.int 4326)⟩
    let c : ConvertContext :=
      { ConvertContext.ofSession (.system 0 0) with
        extension := some (.geometry required), codec := some (.ofText .plain) }
    ∃ g, convert (.json (Text.Utf8.encode "\x7b\"type\":\"Point\"\x7d")) .geometry c =
        .ok (.geometry g) ∧
      g.codec.header g.data = .ok ⟨.int 4326, .int 1, .xy⟩ ∧ g.IsMade ∧
      convert (.object [] (.value (.geometry g))) .geometry { c with codec := none } =
        .ok (.geometry g) := by
  intro required c
  let codec : GeometryCodec := .ofText .plain
  let json : Bytes := Text.Utf8.encode "\x7b\"type\":\"Point\"\x7d"
  let data : Bytes := Text.Utf8.encode "SRID=4326;POINT EMPTY"
  let g : Geometry := ⟨data, ⟨.int 4326, .int 1, .xy⟩, codec⟩
  have hdata : codec.ofGeoJson json (.int 4326) = .ok data :=
    toOption_eq_some.1 (by decide +kernel)
  have hheader : codec.header data = .ok g.header := toOption_eq_some.1 (by decide +kernel)
  have hmade : g.IsMade := Geometry.isMade_iff.2 hheader
  have hread : codecReading? (.json json) codec (some required) = some (.ok g) :=
    congrArg some (bind_eq_ok.2 ⟨data, hdata, Geometry.ofBytes_eq_ok.2 ⟨_, hheader, rfl⟩⟩)
  have hholds : required.Holds g :=
    ⟨fun n hn => Option.some.inj hn ▸ rfl, fun n hn => Option.some.inj hn ▸ rfl⟩
  obtain ⟨hresult, hfound⟩ := constrained_geometry (v := .json json) (c := c) rfl
    fun _ hthere => (by cases hthere)
  obtain ⟨-, hheld⟩ := constrained_geometry (v := .object [] (.value (.geometry g)))
    (c := { c with codec := none }) rfl fun _ hthere => Option.some.inj hthere ▸ hmade
  have hpoint := hfound g rfl (.inr ⟨rfl, codec, rfl, hread⟩) hholds
  obtain ⟨found, hsame, -, -, hkept⟩ := hresult _ hpoint rfl
  obtain rfl := Value.geometry.inj hsame
  exact ⟨g, hpoint, hkept, hmade, hheld g rfl (.inl rfl) hholds⟩

end Convert

end Datum
