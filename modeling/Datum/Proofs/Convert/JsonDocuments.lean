import Datum.Proofs.Cache
import Datum.Proofs.Convert.TargetKind
import Datum.Proofs.Convert.WellFormed
import Datum.Proofs.Equality.Relation
import Datum.Proofs.Json.Numbers
import Datum.Value.Native

/-!
# JSON values and their documents

A JSON value holds a document that can be read again, whichever way it came into being, except a
number that is not finite, whose text is stored without a check. A character string becomes the
document that is the string.
-/

set_option autoImplicit false

namespace Datum

namespace Value

def HoldsDocument (v : Value) : Prop :=
  v.kind = .json ∧ (∃ t, v.text = .ok t ∧ Json.isValid t = true) ∧ ∃ plain, v.native = .ok plain

theorem exists_json {v : Value} (h : v.kind = .json) : ∃ data, v = .json data := by
  cases v with
  | json data => exact ⟨data, rfl⟩
  | _ => cases h

/-- What the checked constructors promise of a JSON value is that it holds a document. -/
theorem holdsDocument_iff {v : Value} : v.HoldsDocument ↔ v.kind = .json ∧ v.WellFormed := by
  constructor
  · rintro ⟨hkind, ⟨t, ht, hvalid⟩, -⟩
    obtain ⟨data, rfl⟩ := exists_json hkind
    cases ht
    exact ⟨rfl, hvalid⟩
  · rintro ⟨hkind, hv⟩
    obtain ⟨data, rfl⟩ := exists_json hkind
    obtain ⟨d, hd⟩ := Option.isSome_iff_exists.1 (show (Json.parse? _).isSome = true from hv)
    refine ⟨rfl, ⟨_, rfl, hv⟩, .ofDocument d, ?_⟩
    simp only [native, Native.ofJsonText, hd]

theorem eq_of_equals_json {w : Value} {data : Bytes} (h : w.equals (.json data) = true) :
    w = .json data := by
  cases w with
  | json a => rw [eq_of_beq (show (a == data) = true from h)]
  | _ => cases h

theorem ofJsonBytes_holdsDocument (data : Bytes) : Ensures (ofJsonBytes data) HoldsDocument :=
  fun w hw => holdsDocument_iff.2 ⟨ofJsonBytes_kind data w hw, ofJsonBytes_wellFormed data w hw⟩

theorem jsonNumber_holdsDocument_iff (n : Num) :
    (jsonNumber n).HoldsDocument ↔ n.toDouble.isFinite = true := by
  rw [holdsDocument_iff]
  constructor
  · rintro ⟨-, hvalid⟩
    rw [← Bool.not_eq_false]
    intro hfinite
    -- the texts of the others are three words, each of which is read back as it is
    have hword : ∀ t ∈ (["NaN", "Infinity", "-Infinity"] : List Text),
        Json.isValid (Text.Utf8.decode (Text.Utf8.encode t)) = false := by decide
    have hmem : n.text ∈ (["NaN", "Infinity", "-Infinity"] : List Text) := by
      rw [Num.text_of_not_isFinite hfinite]
      simpa using Double.text_of_not_isFinite hfinite
    exact absurd hvalid (by simp [jsonNumber, jsonLiteral, WellFormed, hword _ hmem])
  · intro hfinite
    exact ⟨rfl, jsonLiteral_wellFormed (Num.isLiteral_text hfinite)⟩

end Value

namespace Convert

open Value

theorem cast_kind (e : Extension) {v : Value} (hnull : v.isNull = false) :
    Ensures (e.cast v) fun w => w.kind = v.kind ∨ w.kind = .enum := by
  cases e with
  | enum d =>
    refine (enumCast_kind d v hnull).mono fun w hw => hw.imp_right ?_
    rintro ⟨-, e, rfl, -⟩
    rfl
  | geometry constraint => exact (constraint_cast_kind constraint v hnull).mono fun w => .inl

theorem convert_eq_json {v w : Value} {target : Kind} {c : ConvertContext}
    (h : convert v target c = .ok w) (hv : v.kind ≠ .json) (hw : w.kind = .json) :
    toJson v = .ok w := by
  have hother : w.kind ≠ v.kind := fun hkind => hv (hkind.symm.trans hw)
  unfold convert at h
  split at h
  · cases h
    exact absurd rfl hother
  next hnull =>
    rw [Bool.not_eq_true] at hnull
    split at h
    · split at h
      · cases h
        exact absurd rfl hother
      next e he =>
        rcases cast_kind e hnull w h with hkind | hkind
        · exact absurd hkind hother
        · rw [hw] at hkind
          cases hkind
    · rcases byRule_kind v target c w h with rfl | ⟨k, data, -, rfl⟩ | ⟨-, rfl, -⟩
      · rwa [hw] at h
      · cases hw
      · cases hw

theorem convert_holdsDocument {v w : Value} {target : Kind} {c : ConvertContext}
    (h : convert v target c = .ok w) (hv : v.kind ≠ .json) (hw : w.kind = .json) :
    w.HoldsDocument :=
  holdsDocument_iff.2 ⟨hw, toJson_wellFormed v w (convert_eq_json h hv hw)⟩

theorem cached_holdsDocument {cache : Cache} {v w : Value} {target : Kind} {c : ConvertContext}
    (h : (cache.convert v target c).1 = .ok w) (hv : v.kind ≠ .json) (hw : w.kind = .json) :
    w.HoldsDocument := by
  obtain ⟨u, hu, hequal⟩ := cache.convert_equals v target c w h
  obtain ⟨data, rfl⟩ := exists_json ((kind_eq_of_equals hequal).symm.trans hw)
  -- JSON values are equal only if their bytes are
  rw [eq_of_equals_json hequal]
  exact convert_holdsDocument hu hv rfl

/-- A character string becomes JSON whose document is the text of the string, whatever its units. -/
theorem text_as_json (k : StringKind) (s : Text) (c : ConvertContext) :
    ∃ t w, t = (if k = .char then s.dropTrailingSpaces else s) ∧
      (Value.ofText k s).text = .ok t ∧ convert (Value.ofText k s) .json c = .ok w ∧
        w.kind = .json ∧ w.native = .ok (.text t) := by
  obtain ⟨t, ht, hv⟩ : ∃ t, t = (if k = .char then s.dropTrailingSpaces else s) ∧
      Value.ofText k s = .string k t := by
    cases k <;> exact ⟨_, rfl, rfl⟩
  have hquote := Json.isLiteral_quote t
  have hread := Text.Utf8.decode_encode hquote.wellFormed hquote.noMark
  refine ⟨t, .jsonString t, ht, by rw [hv]; rfl, by rw [hv]; rfl, rfl, ?_⟩
  simp only [jsonString, jsonLiteral, native, hread, Native.ofJsonText, Json.parse?_quote,
    Native.ofDocument]

/-- Where a JSON value comes from: bytes or a text, which are checked, a scalar, or the conversion
of a value of another kind, with a cache or without. -/
inductive JsonOrigin where
  | bytes (data : Bytes)
  | text (t : Text)
  | boolean (b : Bool)
  | string (t : Text)
  | integer (n : Int)
  | decimal (d : Decimal)
  | number (n : Num)
  | conversion (v : Value) (other : v.kind ≠ .json) (target : Kind) (c : ConvertContext)
    (cache : Option Cache)

namespace JsonOrigin

def made : JsonOrigin → Outcome Value
  | bytes data => ofJsonBytes data
  | text t => ofJsonText t
  | boolean b => .ok (.jsonBoolean b)
  | string t => .ok (.jsonString t)
  | integer n => .ok (.jsonInteger n)
  | decimal d => .ok (.jsonDecimal d)
  | number n => .ok (.jsonNumber n)
  | conversion v _ target c none => convert v target c
  | conversion v _ target c (some cache) => (cache.convert v target c).1

def IsFinite : JsonOrigin → Prop
  | number n => n.toDouble.isFinite = true
  | _ => True

end JsonOrigin

/-- A JSON value holds a document, wherever it comes from, unless it comes from a number that is not
finite: such a number is stored without a check, and it holds none. -/
theorem json_documents {origin : JsonOrigin} {w : Value} (hmade : origin.made = .ok w)
    (hw : w.kind = .json) : w.HoldsDocument ↔ origin.IsFinite := by
  cases origin with
  | bytes data => exact iff_of_true (ofJsonBytes_holdsDocument data w hmade) trivial
  | text t => exact iff_of_true (ofJsonBytes_holdsDocument _ w hmade) trivial
  | boolean b =>
    cases hmade
    exact iff_of_true (holdsDocument_iff.2 ⟨hw, jsonBoolean_wellFormed b⟩) trivial
  | string t =>
    cases hmade
    exact iff_of_true (holdsDocument_iff.2 ⟨hw, jsonString_wellFormed t⟩) trivial
  | integer n =>
    cases hmade
    exact iff_of_true (holdsDocument_iff.2 ⟨hw, jsonInteger_wellFormed n⟩) trivial
  | decimal d =>
    cases hmade
    exact iff_of_true (holdsDocument_iff.2 ⟨hw, jsonDecimal_wellFormed d⟩) trivial
  | number n =>
    cases hmade
    exact jsonNumber_holdsDocument_iff n
  | conversion v other target c cache =>
    refine iff_of_true ?_ trivial
    cases cache with
    | none => exact convert_holdsDocument hmade other hw
    | some cache => exact cached_holdsDocument hmade other hw

theorem json_documents_of_integer : ∃ w,
    convert (.integer .integer (.int 12)) .json (.ofSession (.system 0 0)) = .ok w ∧
      w.HoldsDocument := by
  let v : Value := .integer .integer (.int 12)
  let origin : JsonOrigin :=
    .conversion v (by decide) .json (.ofSession (.system 0 0)) none
  have hmade : origin.made = .ok (jsonInteger 12) := rfl
  exact ⟨jsonInteger 12, hmade, (json_documents hmade rfl).2 trivial⟩

/-- NaN is stored as a word that is no document, and it cannot be read again. -/
theorem json_of_nan : ∃ w, (JsonOrigin.number .nan).made = .ok w ∧ w.kind = .json ∧
    w.text = .ok "NaN" ∧ Json.isValid "NaN" = false ∧ w.native = .error (.notJson "NaN") :=
  ⟨jsonNumber .nan, rfl, rfl, rfl, rfl, rfl⟩

end Convert

end Datum
