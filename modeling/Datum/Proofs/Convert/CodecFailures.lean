import Datum.Geometry.TextCodec
import Datum.Proofs.Convert.Kind

/-!
# Failures of the geometry codec

A codec may raise anything. Where it reads bytes or JSON, and where it writes GeoJSON, every failure
is one of conversion. Where it reads a text, an error of the library is returned as it is, of
whatever class, and what the writing of a text raises is raised again (`codec_failures`).
-/

set_option autoImplicit false

namespace Datum

def ValueError.isConversion : ValueError → Bool
  | .dataConversion .. | .malformedLiteral .. => true
  | _ => false

def Fault.IsConversion (f : Fault) : Prop := ∃ e : ValueError, f = .value e ∧ e.isConversion = true

theorem GeometryConstraint.check_conversion {c : GeometryConstraint} {g : Geometry} {f : Fault}
    (h : c.check g = .error f) : f.IsConversion := by
  unfold check at h
  split at h
  · cases h
    exact ⟨_, rfl, rfl⟩
  split at h
  · cases h
    exact ⟨_, rfl, rfl⟩
  · cases h

theorem Convert.unsupported_conversion {α : Type} {v : Value} {target : Kind} {detail : Text}
    {f : Fault} (h : (Convert.unsupported v target detail : Outcome α) = .error f) :
    f.IsConversion := by
  cases h
  exact ⟨_, rfl, rfl⟩

theorem GeometryConstraint.cast_conversion {c : GeometryConstraint} {v : Value} {f : Fault}
    (h : c.cast v = .error f) : f.IsConversion := by
  unfold cast at h
  split at h
  · cases h
  next g =>
    obtain h | ⟨g', -, h⟩ := bind_eq_error.1 h
    · exact check_conversion h
    · cases h
  · exact Convert.unsupported_conversion h

namespace Convert

variable {v : Value} {codec : GeometryCodec} {constraint : Option GeometryConstraint} {f : Fault}

def readsText (v : Value) : Bool :=
  match v with
  | .varbinary _ | .json _ => false
  | _ => true

/-- What the codec makes of a value. It is not asked about objects and instants. -/
def codecReading? (v : Value) (codec : GeometryCodec) (constraint : Option GeometryConstraint) :
    Option (Outcome Geometry) :=
  match v with
  | .object _ _ | .timestampTz _ _ _ => none
  | .varbinary data => some (Geometry.ofBytes codec data)
  | .json data =>
    let srid := (constraint.bind (·.srid)).getD (.int 0)
    some (do Geometry.ofBytes codec (← codec.ofGeoJson data srid))
  | v => some (do Geometry.ofText codec (← v.text))

/-- A failure that is not turned into one of conversion: the text could not be written, or the codec
raised an error of the library. -/
def Passes (v : Value) (f : Fault) : Prop :=
  readsText v = true ∧ (v.text = .error f ∨ ∃ e, f = .value e)

def Reports (v : Value) (f : Fault) (e : ValueError) : Prop :=
  readsText v = false ∧ e = .dataConversion v.kind .geometry f.detail ∨
    readsText v = true ∧ ∃ t, v.text = .ok t ∧ e = .malformedLiteral v.kind .geometry t

theorem Reports.isConversion {e : ValueError} (h : Reports v f e) : e.isConversion = true := by
  obtain ⟨-, rfl⟩ | ⟨-, t, -, rfl⟩ := h
  · rfl
  · rfl

theorem decodeGeometry_of_reading {r : Outcome Geometry}
    (h : codecReading? v codec constraint = some r) :
    decodeGeometry v codec constraint =
      if readsText v then readGeometryText v r else readGeometry v r := by
  cases v <;> cases h <;> rfl

theorem decodeGeometry_of_none (h : codecReading? v codec constraint = none) :
    decodeGeometry v codec constraint = unsupported v .geometry [] := by
  cases v <;> first | rfl | cases h

theorem reading_of_readsText {r : Outcome Geometry} (hreads : readsText v = true)
    (h : codecReading? v codec constraint = some r) :
    r = (do Geometry.ofText codec (← v.text)) := by
  unfold codecReading? at h
  split at h
  · cases h
  · cases h
  · cases hreads
  · cases hreads
  · exact (Option.some.inj h).symm

theorem readGeometryText_raised (hf : ∀ e, f ≠ .value e) :
    readGeometryText v (.error f) = malformed v .geometry := by
  cases f with
  | value e => exact absurd rfl (hf e)
  | _ => rfl

theorem malformed_of_text {t : Text} (h : v.text = .ok t) :
    (malformed v .geometry : Outcome Value) =
      .error (.value (.malformedLiteral v.kind .geometry t)) := by
  rw [malformed, h, ok_bind]
  rfl

theorem malformed_of_text_error (h : v.text = .error f) :
    (malformed v .geometry : Outcome Value) = .error f := by
  rw [malformed, h, error_bind]

theorem readGeometryText_of_passes (h : Passes v f) : readGeometryText v (.error f) = .error f := by
  obtain ⟨-, h⟩ := h
  by_cases hf : ∃ e, f = .value e
  · obtain ⟨e, rfl⟩ := hf
    rfl
  · rw [readGeometryText_raised (not_exists.1 hf)]
    exact malformed_of_text_error (h.resolve_right hf)

theorem readGeometryText_of_not_passes (hreads : readsText v = true) (h : ¬Passes v f) :
    readGeometryText v (.error f) = malformed v .geometry :=
  readGeometryText_raised fun e he => h ⟨hreads, .inr ⟨e, he⟩⟩

theorem exists_text (hreads : readsText v = true)
    (hreading : codecReading? v codec constraint = some (.error f)) (h : ¬Passes v f) :
    ∃ t, v.text = .ok t := by
  cases htext : v.text with
  | ok t => exact ⟨t, rfl⟩
  | error g =>
    have hraised := reading_of_readsText hreads hreading
    rw [htext, error_bind, Except.error.injEq] at hraised
    exact absurd ⟨hreads, .inl (hraised ▸ htext)⟩ h

theorem decodeGeometry_of_not_passes
    (hreading : codecReading? v codec constraint = some (.error f)) (h : ¬Passes v f) :
    ∃ e, decodeGeometry v codec constraint = .error (.value e) ∧ Reports v f e := by
  rw [decodeGeometry_of_reading hreading]
  cases hreads : readsText v with
  | false => exact ⟨_, rfl, .inl ⟨hreads, rfl⟩⟩
  | true =>
    obtain ⟨t, ht⟩ := exists_text hreads hreading h
    refine ⟨_, ?_, .inr ⟨hreads, t, ht, rfl⟩⟩
    rw [if_pos rfl, readGeometryText_of_not_passes hreads h, malformed_of_text ht]

theorem decodeGeometry_of_passes
    (hreading : codecReading? v codec constraint = some (.error f)) (h : Passes v f) :
    decodeGeometry v codec constraint = .error f := by
  rw [decodeGeometry_of_reading hreading, if_pos h.1, readGeometryText_of_passes h]

theorem decodeGeometry_ok {g : Geometry}
    (hreading : codecReading? v codec constraint = some (.ok g)) :
    decodeGeometry v codec constraint = .ok (.geometry g) := by
  rw [decodeGeometry_of_reading hreading]
  split <;> rfl

theorem decodeGeometry_error (h : decodeGeometry v codec constraint = .error f) :
    f.IsConversion ∨ codecReading? v codec constraint = some (.error f) ∧ Passes v f := by
  cases hreading : codecReading? v codec constraint with
  | none =>
    rw [decodeGeometry_of_none hreading] at h
    exact .inl (unsupported_conversion h)
  | some r =>
    cases r with
    | ok g =>
      rw [decodeGeometry_ok hreading] at h
      cases h
    | error f' =>
      by_cases hpasses : Passes v f'
      · rw [decodeGeometry_of_passes hreading hpasses] at h
        cases h
        exact .inr ⟨rfl, hpasses⟩
      · obtain ⟨e, he, hreport⟩ := decodeGeometry_of_not_passes hreading hpasses
        rw [he] at h
        cases h
        exact .inl ⟨e, rfl, hreport.isConversion⟩

section Conversion

variable {c : ConvertContext} (hcodec : c.codec = some codec) (hnull : v.isNull = false)
  (hkind : v.kind ≠ .geometry)

include hcodec hnull hkind

theorem convert_geometry_of_decode_error
    (hreading : (codecReading? v codec (constraint? c.extension)).isSome)
    (h : decodeGeometry v codec (constraint? c.extension) = .error f) :
    convert v .geometry c = .error f := by
  have hof : geometryOf v (some codec) (constraint? c.extension) = .error f := by
    cases v with
    | object data held => cases hreading
    | _ => exact h
  rw [convert_eq_byRule hnull hkind]
  simp only [byRule, toGeometry, hcodec, hof, error_bind]

theorem convert_geometry_error (h : convert v .geometry c = .error f) :
    f.IsConversion ∨
      codecReading? v codec (constraint? c.extension) = some (.error f) ∧ Passes v f := by
  rw [convert_eq_byRule hnull hkind] at h
  simp only [byRule, toGeometry, hcodec] at h
  obtain h | ⟨w, -, h⟩ := bind_eq_error.1 h
  · unfold geometryOf at h
    split at h
    · cases h
    · exact decodeGeometry_error h
  · split at h
    · exact .inl (GeometryConstraint.cast_conversion h)
    · cases h

end Conversion

theorem convert_json_error {g : Geometry} {c : ConvertContext}
    (h : convert (.geometry g) .json c = .error f) : f.IsConversion := by
  rw [convert_eq_byRule rfl (by simp)] at h
  simp only [byRule, toJson, geometryToJson] at h
  split at h
  · cases h
  · exact unsupported_conversion h

theorem convert_json_of_error {g : Geometry} (c : ConvertContext)
    (h : g.codec.toGeoJson g.data g.header.dimension = .error f) :
    convert (.geometry g) .json c =
      .error (.value (.dataConversion .geometry .json f.detail)) := by
  rw [convert_eq_byRule rfl (by simp)]
  simp only [byRule, toJson, geometryToJson, h, error_bind]
  rfl

/-- What any codec raises while a value becomes a geometry is reported as an error of conversion,
unless it passes, and then it is the outcome; nothing else is raised. What it raises while a
geometry becomes JSON is always reported. -/
theorem codec_failures {c : ConvertContext} (hcodec : c.codec = some codec) :
    (∀ v f, v.isNull = false → v.kind ≠ .geometry →
      codecReading? v codec (constraint? c.extension) = some (.error f) →
      (Passes v f → convert v .geometry c = .error f) ∧
      (¬Passes v f → ∃ e, convert v .geometry c = .error (.value e) ∧ Reports v f e)) ∧
    (∀ v f, v.isNull = false → v.kind ≠ .geometry → convert v .geometry c = .error f →
      f.IsConversion ∨
        codecReading? v codec (constraint? c.extension) = some (.error f) ∧ Passes v f) ∧
    ∀ (g : Geometry) f, (g.codec.toGeoJson g.data g.header.dimension = .error f →
        convert (.geometry g) .json c =
          .error (.value (.dataConversion .geometry .json f.detail))) ∧
      (convert (.geometry g) .json c = .error f → f.IsConversion) := by
  refine ⟨fun v f hnull hkind hreading => ⟨fun hpasses => ?_, fun hpasses => ?_⟩,
    fun v f hnull hkind => convert_geometry_error hcodec hnull hkind,
    fun g f => ⟨convert_json_of_error c, convert_json_error⟩⟩
  · have hdecoded := decodeGeometry_of_passes hreading hpasses
    exact convert_geometry_of_decode_error hcodec hnull hkind (by rw [hreading]; rfl) hdecoded
  · obtain ⟨e, hdecoded, hreport⟩ := decodeGeometry_of_not_passes hreading hpasses
    exact ⟨e, convert_geometry_of_decode_error hcodec hnull hkind (by rw [hreading]; rfl) hdecoded,
      hreport⟩

/-- One codec raises an error of the library for bytes, for a text and for GeoJSON; only that for
the text passes. -/
theorem codec_failures_of_circle : ∃ (c : ConvertContext) (f : Fault) (g : Geometry),
    c.codec = some (.ofText .strict) ∧
      f = .value (.invalidValue "geometry" "not a geometry: CIRCLE") ∧
      convert (.string .varchar "CIRCLE") .geometry c = .error f ∧
      convert (.varbinary (Text.Utf8.encode "CIRCLE")) .geometry c =
        .error (.value (.dataConversion .varbinary .geometry f.detail)) ∧
      convert (.geometry g) .json c =
        .error (.value (.dataConversion .geometry .json f.detail)) := by
  let codec : GeometryCodec := .ofText .strict
  let c : ConvertContext :=
    { ConvertContext.ofSession (.atOffset ⟨.int 0, 0, .int 0⟩) with codec := some codec }
  let f : Fault := .value (.invalidValue "geometry" "not a geometry: CIRCLE")
  let data : Bytes := Text.Utf8.encode "CIRCLE"
  let g : Geometry := ⟨data, ⟨.int 0, .int 1, .xy⟩, codec⟩
  obtain ⟨hread, -, hwrite⟩ := codec_failures (c := c) rfl
  obtain ⟨hpass, -⟩ := hread (.string .varchar "CIRCLE") f rfl (by decide) rfl
  obtain ⟨-, hreport⟩ := hread (.varbinary data) f rfl (by decide) rfl
  obtain ⟨e, he, hdetail⟩ := hreport fun h => (by cases h.1)
  have hbytes : e = .dataConversion .varbinary .geometry f.detail :=
    (hdetail.resolve_right fun h => (by cases h.1)).2
  exact ⟨c, f, g, rfl, rfl, hpass ⟨rfl, .inr ⟨_, rfl⟩⟩, hbytes ▸ he, (hwrite g f).1 rfl⟩

/-- A text that is no geometry ends in an error that is none of conversion; a list that holds a
geometry ends in what its codec raised, and that is no error of the library. -/
theorem codec_failure_passes : ∃ (c : ConvertContext) (g : Geometry),
    convert (.string .varchar "CIRCLE") .geometry c =
        .error (.value (.invalidValue "geometry" "not a geometry: CIRCLE")) ∧
      (ValueError.invalidValue "geometry" "not a geometry: CIRCLE").isConversion = false ∧
      convert (.array [.geometry g]) .geometry c = .error (.foreign "no text") := by
  let codec : GeometryCodec := .ofText .strict
  let c : ConvertContext :=
    { ConvertContext.ofSession (.atOffset ⟨.int 0, 0, .int 0⟩) with codec := some codec }
  let g : Geometry :=
    ⟨[], ⟨.int 0, .int 1, .xy⟩, { codec with text := fun _ => .error (.foreign "no text") }⟩
  exact ⟨c, g, rfl, rfl, rfl⟩

end Convert

end Datum
