import Datum.Proofs.Compare.ColumnOrder
import Datum.Proofs.Compare.Refinement

/-!
# Order by promotion

Some kinds are promoted among each other without loss: a value has a key, its conversion to the
higher kind keeps the key, and values of one kind compare by their keys. The total order of such
values is the order of their keys, whatever their kinds are.
-/

set_option autoImplicit false

namespace Datum

open Std (TransCmp)

theorem Preordered.of_key {α β : Type} {f : α → α → Outcome Ordering} (key : α → β → Prop)
    (cmp : β → β → Ordering) [TransCmp cmp]
    (h : ∀ {a b x y}, key a x → key b y → f a b = .ok (cmp x y)) :
    Preordered (fun a => ∃ x, key a x) f where
  turned := by
    rintro a b ⟨x, hx⟩ ⟨y, hy⟩
    rw [h hx hy, h hy hx]
    exact (Preordered.of_transCmp cmp).turned trivial trivial
  trans := by
    rintro a b c ⟨x, hx⟩ ⟨y, hy⟩ ⟨z, hz⟩
    simp only [AtMost, h hx hy, h hy hz, h hx hz]
    exact (Preordered.of_transCmp cmp).trans trivial trivial trivial

namespace Compare

variable {β : Type}

/-- A relation gives keys to values of kinds that are promoted among each other. -/
structure Promotes (s : Session) (key : Value → β → Prop) (cmp : β → β → Ordering) : Prop where
  plain : ∀ {v x}, key v x → v.kind ≠ .null ∧ v.kind.isPlain = true
  promoted : ∀ {v w x y}, key v x → key w y → v.kind.rank < w.kind.rank →
    ∃ v', convert v w.kind (.ofSession s) = .ok v' ∧ v'.kind = w.kind ∧ key v' x
  compared : ∀ {v w x y}, key v x → key w y → v.kind = w.kind →
    sameKind (elementOrder (total s)) v w = .ok (cmp x y)

namespace Promotes

variable {s : Session} {key : Value → β → Prop} {cmp : β → β → Ordering} {v w : Value} {x y : β}

theorem kind_ne_enum (h : Promotes s key cmp) (hv : key v x) : v.kind ≠ .enum := by
  intro henum
  have hplain := (h.plain hv).2
  rw [henum] at hplain
  cases hplain

theorem not_result (h : Promotes s key cmp) (hv : key v x) : isSameResult v w = false := by
  have hplain := (h.plain hv).2
  cases v with
  | resultSet => cases hplain
  | _ => rfl

theorem coerce_left (h : Promotes s key cmp) (hv : key v x) (hw : key w y)
    (hlt : v.kind.rank < w.kind.rank) :
    ∃ v', coerce s v w = .ok (v', w) ∧ v'.kind = w.kind ∧ key v' x := by
  obtain ⟨v', hconvert, hkind, hkey⟩ := h.promoted hv hw hlt
  refine ⟨v', ?_, hkind, hkey⟩
  rw [coerce_of_rank_lt hlt (h.kind_ne_enum hw), hconvert, ok_bind]

theorem coerce_right (h : Promotes s key cmp) (hv : key v x) (hw : key w y)
    (hlt : w.kind.rank < v.kind.rank) :
    ∃ w', coerce s v w = .ok (v, w') ∧ v.kind = w'.kind ∧ key w' y := by
  obtain ⟨w', hconvert, hkind, hkey⟩ := h.promoted hw hv hlt
  refine ⟨w', ?_, hkind.symm, hkey⟩
  rw [coerce_of_lt_rank hlt (h.kind_ne_enum hv), hconvert, ok_bind]

theorem coerced (h : Promotes s key cmp) (hv : key v x) (hw : key w y) :
    ∃ v' w', coerce s v w = .ok (v', w') ∧ v'.kind = w'.kind ∧ key v' x ∧ key w' y := by
  rcases Nat.lt_trichotomy v.kind.rank w.kind.rank with hlt | heq | hgt
  · obtain ⟨v', hcoerce, hkind, hkey⟩ := h.coerce_left hv hw hlt
    exact ⟨v', w, hcoerce, hkind, hkey, hw⟩
  · have hkind := Kind.rank_inj heq
    have henum := h.kind_ne_enum hw
    exact ⟨v, w, by simp [coerce, hkind, henum], hkind, hv, hw⟩
  · obtain ⟨w', hcoerce, hkind, hkey⟩ := h.coerce_right hv hw hgt
    exact ⟨v, w', hcoerce, hkind, hv, hkey⟩

theorem total_eq (h : Promotes s key cmp) (hv : key v x) (hw : key w y) :
    total s v w = .ok (cmp x y) := by
  obtain ⟨v', w', hcoerce, hkind, hv', hw'⟩ := h.coerced hv hw
  have hnv := Value.isNull_of_kind (h.plain hv).1
  have hnw := Value.isNull_of_kind (h.plain hw).1
  rw [total_of_not_null hnv hnw (h.not_result hv), withCoercion, afterCoercion, hcoerce]
  exact h.compared hv' hw' hkind

theorem preordered (h : Promotes s key cmp) [TransCmp cmp] :
    Preordered (fun v => ∃ x, key v x) (total s) :=
  .of_key key cmp h.total_eq

end Promotes

end Compare

end Datum
