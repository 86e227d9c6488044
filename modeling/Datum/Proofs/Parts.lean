import Datum.Proofs.Outcome
import Datum.Value.Describe

/-!
# Parts of values

The values that an array, a row or a result holds, at every depth. A geometry is the only part by
which the text of a value, and with it the hash of a result, can fail.
-/

set_option autoImplicit false

namespace Datum

/-- The codec writes whatever it reads: it fails on malformed bytes only. -/
def GeometryCodec.WritesWhatItReads (c : GeometryCodec) : Prop :=
  ∀ data header, c.header data = .ok header → ∃ t, c.text data = .ok t

structure Geometry.IsAccepted (g : Geometry) : Prop where
  read : g.codec.header g.data = .ok g.header
  written : g.codec.WritesWhatItReads

theorem Geometry.IsAccepted.text {g : Geometry} (h : g.IsAccepted) : ∃ t, g.text = .ok t :=
  h.written _ _ h.read

namespace Value

def parts : Value → List Value
  | .array items => items
  | .row items => items
  | .resultSet _ _ rows => rows.flatten
  | _ => []

theorem sizeOf_lt_of_mem_parts {v w : Value} (h : w ∈ v.parts) : sizeOf w < sizeOf v := by
  cases v with
  | array items | row items =>
    have := List.sizeOf_lt_of_mem (show w ∈ items from h)
    simp only [array.sizeOf_spec, row.sizeOf_spec]
    omega
  | resultSet mark columns rows =>
    obtain ⟨fields, hfields, hw⟩ := List.mem_flatten.1 h
    have := List.sizeOf_lt_of_mem hfields
    have := List.sizeOf_lt_of_mem hw
    simp only [resultSet.sizeOf_spec]
    omega
  | _ => simp [parts] at h

theorem induction_on_parts {P : Value → Prop} (step : ∀ v, (∀ w ∈ v.parts, P w) → P v)
    (v : Value) : P v :=
  step v fun w _ => induction_on_parts step w
termination_by sizeOf v
decreasing_by exact sizeOf_lt_of_mem_parts ‹_›

inductive Within (x : Value) : Value → Prop where
  | self : Within x x
  | part {v w : Value} : w ∈ v.parts → Within x w → Within x v

/-! Of a value that is written out, membership unfolds to its parts. -/

section Unfold

variable {x : Value}

theorem within_iff {v : Value} : Within x v ↔ x = v ∨ ∃ w ∈ v.parts, Within x w := by
  constructor
  · intro h
    cases h with
    | self => exact .inl rfl
    | part hw hx => exact .inr ⟨_, hw, hx⟩
  · rintro (rfl | ⟨w, hw, hx⟩)
    · exact .self
    · exact .part hw hx

theorem within_of_no_parts {v : Value} (h : v.parts = []) : Within x v ↔ x = v := by
  rw [within_iff, h]
  simp

@[simp] theorem within_geometry {g : Geometry} : Within x (.geometry g) ↔ x = .geometry g :=
  within_of_no_parts rfl

@[simp] theorem within_integer {k : IntegerKind} {n : Whole} :
    Within x (.integer k n) ↔ x = .integer k n :=
  within_of_no_parts rfl

@[simp] theorem within_array {items : List Value} :
    Within x (.array items) ↔ x = .array items ∨ ∃ w ∈ items, Within x w := within_iff

@[simp] theorem within_resultSet {mark : Nat} {columns : List Column} {rows : List (List Value)} :
    Within x (.resultSet mark columns rows) ↔
      x = .resultSet mark columns rows ∨ ∃ w ∈ rows.flatten, Within x w := within_iff

end Unfold

/-- Results that two values hold are the same if they have the same mark. -/
def MarksAgree (l r : Value) : Prop :=
  ∀ mark columns rows columns' rows', Within (.resultSet mark columns rows) l →
    Within (.resultSet mark columns' rows') r → columns = columns' ∧ rows = rows'

theorem MarksAgree.part {l r a b : Value} (h : MarksAgree l r) (ha : a ∈ l.parts)
    (hb : b ∈ r.parts) : MarksAgree a b :=
  fun _ _ _ _ _ hx hy => h _ _ _ _ _ (.part ha hx) (.part hb hy)

def IsWritable (v : Value) : Prop := ∀ g, Within (.geometry g) v → ∃ t, g.text = .ok t

theorem IsWritable.part {v w : Value} (h : v.IsWritable) (hw : w ∈ v.parts) : w.IsWritable :=
  fun g hg => h g (.part hw hg)

theorem isWritable_of_accepted {v : Value}
    (h : ∀ g, Within (.geometry g) v → g.IsAccepted) : v.IsWritable :=
  fun g hg => (h g hg).text

theorem isWritable_of_parts {v : Value} (hv : ∀ g, v ≠ .geometry g)
    (h : ∀ w ∈ v.parts, w.IsWritable) : v.IsWritable := by
  intro g hg
  rcases within_iff.1 hg with hg | ⟨w, hw, hg⟩
  · exact (hv g hg.symm).elim
  · exact h w hw g hg

theorem texts_ok {items : List Value} (h : ∀ v ∈ items, ∃ t, v.text = .ok t) :
    ∃ ts, texts items = .ok ts := by
  induction items with
  | nil => exact ⟨[], rfl⟩
  | cons v rest ih =>
    obtain ⟨t, ht⟩ := h v (by simp)
    obtain ⟨ts, hts⟩ := ih fun w hw => h w (by simp [hw])
    exact ⟨t :: ts, by simp [texts, ht, hts]⟩

theorem rowTexts_ok {rows : List (List Value)}
    (h : ∀ v ∈ rows.flatten, ∃ t, v.text = .ok t) : ∃ ts, rowTexts rows = .ok ts := by
  induction rows with
  | nil => exact ⟨[], rfl⟩
  | cons fields rest ih =>
    obtain ⟨ts, hts⟩ := texts_ok fun v (hv : v ∈ fields) => h v (by simp [hv])
    obtain ⟨rs, hrs⟩ := ih fun v hv => h v (List.mem_append_right fields hv)
    exact ⟨enclosed "(" ")" ts :: rs, by simp [rowTexts, hts, hrs]⟩

theorem hashes_ok {items : List Value} (h : ∀ v ∈ items, ∃ n, v.hash = .ok n) :
    ∃ ns, hashes items = .ok ns := by
  induction items with
  | nil => exact ⟨[], rfl⟩
  | cons v rest ih =>
    obtain ⟨n, hn⟩ := h v (by simp)
    obtain ⟨ns, hns⟩ := ih fun w hw => h w (by simp [hw])
    exact ⟨n :: ns, by simp [hashes, hn, hns]⟩

theorem IsWritable.text_ok {v : Value} (h : v.IsWritable) : ∃ t, v.text = .ok t := by
  induction v using induction_on_parts with
  | step v ih =>
    have hparts : ∀ w ∈ v.parts, ∃ t, w.text = .ok t := fun w hw => ih w hw (h.part hw)
    cases v with
    | array items | row items =>
      obtain ⟨ts, hts⟩ := texts_ok (show ∀ w ∈ items, _ from hparts)
      simp [text, hts]
    | resultSet mark columns rows =>
      obtain ⟨ts, hts⟩ := rowTexts_ok hparts
      simp [text, hts]
    | geometry g => exact h g .self
    | float k x => cases k <;> exact ⟨_, rfl⟩
    | _ => exact ⟨_, rfl⟩

theorem hash_ok_of_kind {v : Value} (harray : v.kind ≠ .array) (hrow : v.kind ≠ .row)
    (hresult : v.kind ≠ .resultSet) : ∃ n, v.hash = .ok n := by
  cases v with
  | array items => exact (harray rfl).elim
  | row items => exact (hrow rfl).elim
  | resultSet mark columns rows => exact (hresult rfl).elim
  | integer k n => cases k <;> exact ⟨_, rfl⟩
  | _ => exact ⟨_, rfl⟩

theorem IsWritable.hash_ok {v : Value} (h : v.IsWritable) : ∃ n, v.hash = .ok n := by
  induction v using induction_on_parts with
  | step v ih =>
    cases v with
    | array items | row items =>
      have hparts : ∀ w ∈ items, ∃ n, w.hash = .ok n := fun w hw => ih w hw (h.part hw)
      obtain ⟨ns, hns⟩ := hashes_ok hparts
      simp [hash, hns]
    | resultSet mark columns rows =>
      obtain ⟨t, ht⟩ := h.text_ok
      simp [hash, ht]
    | _ => exact hash_ok_of_kind (by simp [kind]) (by simp [kind]) (by simp [kind])

end Value

end Datum
