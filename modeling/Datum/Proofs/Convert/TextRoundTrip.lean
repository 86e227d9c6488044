import Datum.Proofs.Convert.Kind
import Datum.Proofs.Number.DecimalLiteral
import Datum.Proofs.Text.Utf8
import Datum.Proofs.Uuid
import Datum.Proofs.Value.Make

/-!
# Conversion through text

Values of the kinds whose text is exact are converted to a string and back to an equal value. Their
texts have no blanks at the ends, so that no kind of string changes them.

A character object made from a text without lone surrogates gives the text back, but without a byte
order mark in front: the mark is stored and lost in reading.
-/

set_option autoImplicit false

namespace Datum

/-- Whether the text of a value of a kind says all there is to it. -/
def Kind.hasExactText : Kind → Bool
  | .boolean | .integer _ | .numeric | .time | .timeTz | .uuid | .interval _ | .enum => true
  | _ => false

namespace Text

theorem ofInt_isTight (n : Int) : (ofInt n).IsTight := by
  refine isTight_of_forall fun u hu => ?_
  unfold ofInt at hu
  split at hu
  · rcases List.mem_cons.1 hu with rfl | hu
    · decide
    · exact isBlank_of_isDigit (ofNat_isDigit _ u hu)
  · exact isBlank_of_isDigit (ofNat_isDigit _ u hu)

end Text

namespace Convert

theorem toString_of_isTight {v : Value} {k : StringKind} {t : Text} (hnull : v.isNull = false)
    (hk : v.kind ≠ .string k) (ht : v.text = .ok t) (htight : t.IsTight) (c : ConvertContext) :
    convert v (.string k) c = .ok (.string k t) := by
  rw [convert_eq_byRule hnull hk]
  simp only [byRule, ht, ok_bind, pure_eq_ok, Value.ofText_of_isTight k htight]

theorem ofString_byRule (k : StringKind) (t : Text) {target : Kind} (h : target ≠ .string k)
    (c : ConvertContext) :
    convert (.string k t) target c = byRule (.string k t) target c := by
  have hk : (Value.string k t).kind ≠ target := Ne.symm h
  exact convert_eq_byRule rfl hk c

def ReadsBack (v : Value) (c : ConvertContext) : Prop :=
  ∃ t, v.text = .ok t ∧ t.IsTight ∧
    ∀ k, ∃ w, byRule (.string k t) v.kind c = .ok w ∧ w.equals v = true

theorem ReadsBack.convert {v : Value} {c : ConvertContext} (h : ReadsBack v c)
    (hnull : v.isNull = false) {k : StringKind} (hk : v.kind ≠ .string k) (c' : ConvertContext) :
    ∃ t w, v.text = .ok t ∧ Datum.convert v (.string k) c' = .ok (.string k t) ∧
      Datum.convert (.string k t) v.kind c = .ok w ∧ w.equals v = true := by
  obtain ⟨t, ht, htight, hread⟩ := h
  obtain ⟨w, hw, heq⟩ := hread k
  refine ⟨t, w, ht, toString_of_isTight hnull hk ht htight c', ?_, heq⟩
  rw [ofString_byRule k t hk c, hw]

section Strings

variable (k : StringKind) (t : Text) (c : ConvertContext)

theorem byRule_boolean : byRule (.string k t) .boolean c = match parseBoolean? t.trim with
    | some b => .ok (.boolean b)
    | none => malformed (.string k t) .boolean := rfl

theorem byRule_integer (j : IntegerKind) :
    byRule (.string k t) (.integer j) c = do
      let n ← textInteger (.string k t) (.integer j)
      return .integer j (.int (← narrow j n c.column)) := rfl

theorem textInteger_string (target : Kind) :
    textInteger (.string k t) target = match Text.toInt? t.trim with
      | some n => .ok n
      | none => malformed (.string k t) target := rfl

theorem byRule_numeric : byRule (.string k t) .numeric c = match Decimal.parse? t.trim with
    | some d => .ok (.numeric d)
    | none => malformed (.string k t) .numeric := rfl

theorem byRule_time : byRule (.string k t) .time c = match Calendar.parseTime? t.trim with
    | some nanos => Value.ofTime nanos
    | none => malformed (.string k t) .time := rfl

theorem byRule_timeTz :
    byRule (.string k t) .timeTz c = match Calendar.parseTimeLiteral? t.trim with
      | some l => Value.ofTimeTz l.nanos ((l.offset.map .int).getD c.session.now.offset.toNum)
      | none => malformed (.string k t) .timeTz := rfl

theorem byRule_uuid : byRule (.string k t) .uuid c = match Uuid.parse? t with
    | some u => .ok (.uuid u)
    | none => malformed (.string k t) .uuid := rfl

theorem byRule_interval (q : Qualifier) :
    byRule (.string k t) (.interval q) c = textToInterval t q := rfl

theorem byRule_enum : byRule (.string k t) .enum c = toEnum (.string k t) c.extension := rfl

theorem enumOf_string (d : EnumDomain) :
    enumOf (.string k t) d = do return .enum (← d.lookup (.label t) (.string k)) := rfl

end Strings

theorem boolean_readsBack (b : Bool) (c : ConvertContext) : ReadsBack (.boolean b) c := by
  refine ⟨if b then "TRUE" else "FALSE", rfl, by cases b <;> decide, fun k => ?_⟩
  have hword : parseBoolean? (Text.trim (if b then "TRUE" else "FALSE")) = some b := by
    cases b <;> decide +kernel
  refine ⟨.boolean b, ?_, by simp⟩
  rw [Value.kind_boolean, byRule_boolean, hword]

theorem integer_readsBack {k : IntegerKind} {n : Whole} (h : k.holds n.val = true)
    (c : ConvertContext) : ReadsBack (.integer k n) c := by
  have htight := Text.ofInt_isTight n.val
  refine ⟨Text.ofInt n.val, rfl, htight, fun j => ?_⟩
  refine ⟨.integer k (.int n.val), ?_, by simp [Whole.val]⟩
  rw [Value.kind_integer, byRule_integer, textInteger_string, Text.trim_of_isTight htight,
    Text.toInt?_ofInt]
  simp [narrow, h]

theorem numeric_readsBack (d : Decimal) (c : ConvertContext) : ReadsBack (.numeric d) c := by
  have htight := Text.isTight_of_forall d.text_isBlank
  refine ⟨d.text, rfl, htight, fun k => ⟨.numeric d, ?_, by simp⟩⟩
  rw [Value.kind_numeric, byRule_numeric, Text.trim_of_isTight htight, d.parse?_text]

theorem time_readsBack {nanos : Int} (h : IsNanos nanos) (c : ConvertContext) :
    ReadsBack (.time nanos) c := by
  obtain ⟨n, rfl, hn⟩ := h.natCast
  have htight := Text.isTight_of_forall (Calendar.formatTime_isBlank hn)
  refine ⟨Calendar.formatTime n, rfl, htight, fun k => ⟨.time n, ?_, by simp⟩⟩
  rw [Value.kind_time, byRule_time, Text.trim_of_isTight htight, Calendar.parseTime?_formatTime hn]
  simp [Value.ofTime, Value.checkNanos_of_isNanos h]

theorem timeTz_readsBack {nanos : Int} {offset : Whole} (h : IsNanos nanos)
    (ho : IsOffset offset.val) (c : ConvertContext) : ReadsBack (.timeTz nanos offset) c := by
  obtain ⟨n, rfl, hn⟩ := h.natCast
  have htight := Text.isTight_of_forall (List.forall_mem_append.2
    ⟨Calendar.formatTime_isBlank hn, Calendar.formatOffset_isBlank ho.natAbs_le⟩)
  refine ⟨Calendar.formatTime n ++ Calendar.formatOffset offset.val, rfl, htight, fun k => ?_⟩
  refine ⟨.timeTz n (.int offset.val), ?_, by simp [Whole.val]⟩
  rw [Value.kind_timeTz, byRule_timeTz, Text.trim_of_isTight htight,
    Calendar.parseTimeLiteral?_formatTime hn ho.natAbs_le]
  simp [Value.ofTimeTz, Value.checkNanos_of_isNanos h, Value.checkOffset_of_isOffset ho]

theorem uuid_readsBack (u : Uuid) (c : ConvertContext) : ReadsBack (.uuid u) c := by
  refine ⟨u.text, rfl, Text.isTight_of_forall u.text_isBlank, fun k => ?_⟩
  refine ⟨.uuid u, ?_, by simp⟩
  rw [Value.kind_uuid, byRule_uuid, u.parse?_text]

theorem interval_readsBack {q : Qualifier} {f : IntervalFields} (h : f.IsValid q)
    (c : ConvertContext) : ReadsBack (.interval q f) c := by
  refine ⟨f.literal q, rfl, IntervalFields.literal_isTight q f, fun k => ?_⟩
  refine ⟨.interval q f, ?_, by simp⟩
  rw [Value.kind_interval, byRule_interval]
  simp [textToInterval, parsedInterval?, IntervalFields.parse?_literal q h,
    Value.ofFields_of_isValid h]

theorem enum_readsBack {e : Enumerator} (h : e.IsValid) {c : ConvertContext}
    (hc : c.extension = some (.enum e.domain)) : ReadsBack (.enum e) c := by
  have htrimmed := (h.domain.trimmed e.label (List.mem_of_getElem? h.label)).1
  refine ⟨e.label, rfl, htrimmed ▸ Text.isTight_trim e.label, fun k => ?_⟩
  refine ⟨.enum e, ?_, by simp⟩
  rw [Value.kind_enum, byRule_enum, hc, toEnum, enumOf_string,
    EnumDomain.lookup_label h.domain h.label]
  rfl

end Convert

/-- Conversion to any kind of string gives the text of the value, and conversion back gives an equal
value. An enumerator has to be read in its own domain. -/
theorem text_round_trip {v : Value} (hk : v.kind.hasExactText = true) (hv : v.WellFormed)
    (k : StringKind) (c c' : ConvertContext)
    (hc : ∀ e, v = .enum e → c'.extension = some (.enum e.domain)) :
    ∃ t w, v.text = .ok t ∧ convert v (.string k) c = .ok (.string k t) ∧
      convert (.string k t) v.kind c' = .ok w ∧ w.equals v = true := by
  have hnull : v.isNull = false := by
    refine Value.isNull_of_kind fun h => ?_
    rw [h] at hk
    cases hk
  have hstring : v.kind ≠ .string k := by
    intro h
    rw [h] at hk
    cases hk
  have hread : Convert.ReadsBack v c' := by
    cases v with
    | boolean b => exact Convert.boolean_readsBack b c'
    | integer j n => exact Convert.integer_readsBack (by simpa only [Value.WellFormed] using hv) c'
    | numeric d => exact Convert.numeric_readsBack d c'
    | time nanos => exact Convert.time_readsBack (by simpa only [Value.WellFormed] using hv) c'
    | timeTz nanos offset =>
      simp only [Value.WellFormed] at hv
      exact Convert.timeTz_readsBack hv.1 hv.2 c'
    | uuid u => exact Convert.uuid_readsBack u c'
    | interval q f =>
      exact Convert.interval_readsBack (by simpa only [Value.WellFormed] using hv) c'
    | enum e =>
      exact Convert.enum_readsBack (by simpa only [Value.WellFormed] using hv) (hc e rfl)
    | _ => simp [Kind.hasExactText] at hk
  exact hread.convert hnull hstring c

/-- The second of two labels, as text of fixed width. -/
theorem text_round_trip_of_label :
    ∃ (e : Enumerator) (c : ConvertContext), e.domain.labels.length = 2 ∧
      (Value.enum e).WellFormed ∧ ∃ t w, (Value.enum e).text = .ok t ∧
        convert (.enum e) (.string .char) c = .ok (.string .char t) ∧
        convert (.string .char t) .enum c = .ok w ∧ w.equals (.enum e) = true := by
  let e : Enumerator := ⟨"large", 1, ⟨["small", "large"]⟩⟩
  let c : ConvertContext :=
    { ConvertContext.ofSession (.system 0 0) with extension := some (.enum e.domain) }
  have hdomain : e.domain.IsValid := by
    constructor <;> decide +kernel
  have hv : (Value.enum e).WellFormed := by
    simp only [Value.WellFormed]
    exact ⟨hdomain, rfl⟩
  refine ⟨e, c, rfl, hv, text_round_trip (v := .enum e) rfl hv .char c c fun d hd => ?_⟩
  cases hd
  rfl

theorem Lob.text_ofText {t : Text} (h : t.isWellFormed = true) : (ofText t).text = t.withoutMark :=
  Text.Utf8.decode_encode_eq h

namespace Convert

variable {c : ConvertContext}

theorem varchar_toClob (hstore : ∀ data, c.store .clob data = ⟨.clob, data⟩) (t : Text) :
    convert (.string .varchar t) (.lob .clob) c = .ok (.lob (.ofText t)) := by
  rw [convert_eq_byRule rfl (by simp)]
  exact congrArg (Except.ok ∘ Value.lob) (hstore _)

theorem lob_toVarchar (l : Lob) (c : ConvertContext) :
    convert (.lob l) (.string .varchar) c = .ok (.string .varchar l.text) :=
  convert_eq_byRule rfl (by simp) c

/-- A text comes back from a character object without the byte order mark that it may begin with,
and so is kept exactly if it begins with none. -/
theorem clob_text (hstore : ∀ data, c.store .clob data = ⟨.clob, data⟩) {t : Text}
    (h : t.isWellFormed = true) :
    convert (.string .varchar t) (.lob .clob) c = .ok (.lob (.ofText t)) ∧
      (Value.lob (.ofText t)).text = .ok t.withoutMark ∧
      (t.withoutMark = t ↔ t.head? ≠ some 0xFEFF) ∧
      ∀ c', ∃ w, convert (.lob (.ofText t)) (.string .varchar) c' = .ok w ∧
        (w.equals (.string .varchar t) = true ↔ t.head? ≠ some 0xFEFF) := by
  have hread := Lob.text_ofText h
  refine ⟨varchar_toClob hstore t, congrArg Except.ok hread, Text.withoutMark_eq_self_iff,
    fun c' => ⟨_, lob_toVarchar _ c', ?_⟩⟩
  rw [hread, ← Text.withoutMark_eq_self_iff]
  simp [Value.equals]

theorem clob_text_of_all_lengths :
    convert (.string .varchar "aé€😀\ufeff") (.lob .clob) (.ofSession (.system 0 0))
        = .ok (.lob (.ofText "aé€😀\ufeff")) ∧
      (Value.lob (.ofText "aé€😀\ufeff")).text = .ok "aé€😀\ufeff" := by
  obtain ⟨hlob, hread, hkept, -⟩ := clob_text (c := .ofSession (.system 0 0))
    (fun data => rfl) (t := "aé€😀\ufeff") (by decide)
  rw [hkept.2 (by decide)] at hread
  exact ⟨hlob, hread⟩

/-- A text that begins with a byte order mark is not kept. -/
theorem clob_loses_mark :
    Text.isWellFormed "\ufeffa" = true ∧
      convert (.string .varchar "\ufeffa") (.lob .clob) (.ofSession (.system 0 0))
        = .ok (.lob (.ofText "\ufeffa")) ∧
      (Value.lob (.ofText "\ufeffa")).text = .ok "a" ∧
      ∃ w, convert (.lob (.ofText "\ufeffa")) (.string .varchar) (.ofSession (.system 0 0)) = .ok w ∧
        w.equals (.string .varchar "\ufeffa") = false :=
  ⟨by decide, by rfl, by rfl, _, by rfl, by decide⟩

end Convert

end Datum
