import Datum.Proofs.Compare.Unfold
import Datum.Proofs.EnumDomain
import Datum.Proofs.Value

/-!
# The order of a column

The values of one column have one type, NULL at every depth aside. On them the total order never
fails and is a total preorder with NULL below everything else. Scalars inherit this from the order
of their payloads, arrays and rows from that of their elements, and coercion does nothing.
-/

set_option autoImplicit false

namespace Datum

open Std (TransCmp OrientedCmp)

/-- Whether values of a kind are ordered by their payload, which leaves out floating point, results
and the kinds that need more than a kind to say what is in them. -/
def Kind.isPlain : Kind → Bool
  | .float _ | .array | .row | .resultSet | .enum => false
  | _ => true

inductive ColumnType where
  | plain (k : Kind) (h : k.isPlain)
  | enum (d : EnumDomain)
  | array (element : ColumnType)
  | row (fields : List ColumnType)

namespace ColumnType

mutual

/-- The values of a type, NULL among them. -/
def Has : ColumnType → Value → Prop
  | _, .null => True
  | .plain k _, v => v.kind = k
  | .enum d, .enum e => e.domain = d
  | .array t, .array items => ∀ v ∈ items, Has t v
  | .row types, .row items => HasEach types items
  | _, _ => False

def HasEach : List ColumnType → List Value → Prop
  | [], [] => True
  | t :: types, v :: items => Has t v ∧ HasEach types items
  | _, _ => False

end

section Inversion

variable {v : Value} (hn : v.isNull = false)

include hn

theorem has_plain {k : Kind} {hk : k.isPlain} (h : (plain k hk).Has v) : v.kind = k := by
  cases v with
  | null => cases hn
  | _ => exact h

theorem has_enum {d : EnumDomain} (h : (enum d).Has v) : ∃ e, v = .enum e ∧ e.domain = d := by
  cases v with
  | null => cases hn
  | enum e => exact ⟨e, rfl, h⟩
  | _ => cases h

theorem has_array {t : ColumnType} (h : (array t).Has v) :
    ∃ items, v = .array items ∧ ∀ a ∈ items, t.Has a := by
  cases v with
  | null => cases hn
  | array items => exact ⟨items, rfl, h⟩
  | _ => cases h

theorem has_row {types : List ColumnType} (h : (row types).Has v) :
    ∃ items, v = .row items ∧ HasEach types items := by
  cases v with
  | null => cases hn
  | row items => exact ⟨items, rfl, h⟩
  | _ => cases h

end Inversion

theorem hasEach_length {types : List ColumnType} {items : List Value} (h : HasEach types items) :
    items.length = types.length := by
  induction types generalizing items with
  | nil =>
    cases items with
    | nil => rfl
    | cons v items => cases h
  | cons t types ih =>
    cases items with
    | nil => cases h
    | cons v items =>
      obtain ⟨-, h⟩ : Has t v ∧ HasEach types items := h
      rw [List.length_cons, List.length_cons, ih h]

end ColumnType

def AtMost {α : Type} (f : α → α → Outcome Ordering) (a b : α) : Prop :=
  ∃ o, f a b = .ok o ∧ o.isLE

/-- A comparison never fails on values with a property, and is a total preorder of them. -/
structure Preordered {α : Type} (P : α → Prop) (f : α → α → Outcome Ordering) : Prop where
  turned : ∀ {a b}, P a → P b → ∃ o, f a b = .ok o ∧ f b a = .ok o.swap
  trans : ∀ {a b c}, P a → P b → P c → AtMost f a b → AtMost f b c → AtMost f a c

namespace Preordered

variable {α : Type} {P Q : α → Prop} {f g : α → α → Outcome Ordering} {a b c : α}

theorem self (h : Preordered P f) (ha : P a) : f a a = .ok .eq := by
  obtain ⟨o, hab, hba⟩ := h.turned ha ha
  rw [hab] at hba ⊢
  cases o <;> simp_all

theorem mono (h : Preordered P f) (hQ : ∀ a, Q a → P a) : Preordered Q f where
  turned ha hb := h.turned (hQ _ ha) (hQ _ hb)
  trans ha hb hc := h.trans (hQ _ ha) (hQ _ hb) (hQ _ hc)

theorem congr (h : Preordered P f) (hfg : ∀ a b, P a → P b → g a b = f a b) : Preordered P g where
  turned ha hb := by
    rw [hfg _ _ ha hb, hfg _ _ hb ha]
    exact h.turned ha hb
  trans ha hb hc := by
    simp only [AtMost, hfg _ _ ha hb, hfg _ _ hb hc, hfg _ _ ha hc]
    exact h.trans ha hb hc

theorem eq_iff (h : Preordered P f) (ha : P a) (hb : P b) :
    f a b = .ok .eq ↔ AtMost f a b ∧ AtMost f b a := by
  obtain ⟨o, hab, hba⟩ := h.turned ha hb
  cases o <;> simp [AtMost, hab, hba]

theorem eq_trans (h : Preordered P f) (ha : P a) (hb : P b) (hc : P c) (hab : f a b = .ok .eq)
    (hbc : f b c = .ok .eq) : f a c = .ok .eq := by
  obtain ⟨hab, hba⟩ := (h.eq_iff ha hb).1 hab
  obtain ⟨hbc, hcb⟩ := (h.eq_iff hb hc).1 hbc
  exact (h.eq_iff ha hc).2 ⟨h.trans ha hb hc hab hbc, h.trans hc hb ha hcb hba⟩

theorem eq_of_between (h : Preordered P f) (ha : P a) (hb : P b) (hc : P c)
    (hab : AtMost f a b) (hbc : AtMost f b c) (hac : f a c = .ok .eq) :
    f a b = .ok .eq ∧ f b c = .ok .eq := by
  have hca := ((h.eq_iff ha hc).1 hac).2
  exact ⟨(h.eq_iff ha hb).2 ⟨hab, h.trans hb hc ha hbc hca⟩,
    (h.eq_iff hb hc).2 ⟨hbc, h.trans hc ha hb hca hab⟩⟩

theorem of_make {β : Type} {R : β → Prop} {h : β → β → Outcome Ordering} (make : β → α)
    (hh : Preordered R h) (hP : ∀ a, P a → ∃ x, a = make x ∧ R x)
    (hf : ∀ x y, R x → R y → f (make x) (make y) = h x y) : Preordered P f where
  turned ha hb := by
    obtain ⟨x, rfl, hx⟩ := hP _ ha
    obtain ⟨y, rfl, hy⟩ := hP _ hb
    rw [hf x y hx hy, hf y x hy hx]
    exact hh.turned hx hy
  trans ha hb hc := by
    obtain ⟨x, rfl, hx⟩ := hP _ ha
    obtain ⟨y, rfl, hy⟩ := hP _ hb
    obtain ⟨z, rfl, hz⟩ := hP _ hc
    simp only [AtMost, hf x y hx hy, hf y z hy hz, hf x z hx hz]
    exact hh.trans hx hy hz

theorem of_transCmp {β : Type} (cmp : β → β → Ordering) [TransCmp cmp] :
    Preordered (fun _ => True) fun a b => .ok (cmp a b) where
  turned {a b} _ _ := by
    have hswap : cmp b a = (cmp a b).swap := OrientedCmp.eq_swap
    exact ⟨cmp a b, rfl, by rw [hswap]⟩
  trans _ _ _ := by
    simp only [AtMost, Except.ok.injEq, exists_eq_left']
    exact TransCmp.isLE_trans

theorem of_payload {β : Type} (make : β → α) (cmp : β → β → Ordering) [TransCmp cmp]
    (hP : ∀ a, P a → ∃ x, a = make x) (hf : ∀ x y, f (make x) (make y) = .ok (cmp x y)) :
    Preordered P f :=
  of_make make (of_transCmp cmp) (fun a h => (hP a h).imp fun _ hx => ⟨hx, trivial⟩)
    fun x y _ _ => hf x y

end Preordered

namespace Compare

variable {f : Value → Value → Outcome Ordering} {P : Value → Prop} {L : List Value → Prop}

theorem nil_atMost (l : List Value) : AtMost (elementOrder f) [] l := by
  cases l with
  | nil => exact ⟨.eq, rfl, rfl⟩
  | cons b l => exact ⟨.lt, rfl, rfl⟩

theorem not_cons_atMost_nil (a : Value) (l : List Value) :
    ¬AtMost (elementOrder f) (a :: l) [] := by
  rintro ⟨o, h, hle⟩
  cases h
  simp at hle

theorem cons_atMost_cons {a b : Value} {l r : List Value} :
    AtMost (elementOrder f) (a :: l) (b :: r) ↔
      f a b = .ok .lt ∨ f a b = .ok .eq ∧ AtMost (elementOrder f) l r := by
  rw [AtMost, elementOrder]
  cases h : f a b with
  | error e => simp
  | ok o => cases o <;> simp [AtMost]

/-- The order of lists that are empty, or have a first element and a rest of known properties. -/
theorem preordered_step (hf : Preordered P f) (hL : Preordered L (elementOrder f)) :
    Preordered (fun l => l = [] ∨ ∃ a r, l = a :: r ∧ P a ∧ L r) (elementOrder f) where
  turned := by
    rintro _ _ (rfl | ⟨a, l, rfl, ha, hl⟩) (rfl | ⟨b, r, rfl, hb, hr⟩)
    · exact ⟨.eq, rfl, rfl⟩
    · exact ⟨.lt, rfl, rfl⟩
    · exact ⟨.gt, rfl, rfl⟩
    · obtain ⟨o, hab, hba⟩ := hf.turned ha hb
      simp only [elementOrder, hab, hba, ok_bind]
      cases o with
      | lt => exact ⟨.lt, rfl, rfl⟩
      | eq => exact hL.turned hl hr
      | gt => exact ⟨.gt, rfl, rfl⟩
  trans := by
    rintro _ _ _ (rfl | ⟨a, l, rfl, ha, hl⟩) (rfl | ⟨b, r, rfl, hb, hr⟩)
      (rfl | ⟨c, t, rfl, hc, ht⟩) hab hbc
    any_goals exact nil_atMost _
    any_goals exact absurd hab (not_cons_atMost_nil _ _)
    any_goals exact absurd hbc (not_cons_atMost_nil _ _)
    -- lists in order have first elements in order, and equal ones leave the order to the rests
    have first {a b : Value} {l r : List Value} (h : AtMost (elementOrder f) (a :: l) (b :: r)) :
        AtMost f a b := by
      rcases cons_atMost_cons.1 h with h | ⟨h, -⟩
      · exact ⟨.lt, h, rfl⟩
      · exact ⟨.eq, h, rfl⟩
    obtain ⟨o, hac, hle⟩ := hf.trans ha hb hc (first hab) (first hbc)
    cases o with
    | lt => exact cons_atMost_cons.2 (.inl hac)
    | gt => simp at hle
    | eq =>
      obtain ⟨hab', hbc'⟩ := hf.eq_of_between ha hb hc (first hab) (first hbc) hac
      have hlr : AtMost (elementOrder f) l r := by simpa [hab'] using cons_atMost_cons.1 hab
      have hrt : AtMost (elementOrder f) r t := by simpa [hbc'] using cons_atMost_cons.1 hbc
      exact cons_atMost_cons.2 (.inr ⟨hac, hL.trans hl hr ht hlr hrt⟩)

theorem preordered_nil : Preordered (fun l => l = []) (elementOrder f) where
  turned := by
    rintro _ _ rfl rfl
    exact ⟨.eq, rfl, rfl⟩
  trans := by
    rintro _ _ _ rfl rfl rfl _ _
    exact nil_atMost _

theorem preordered_upTo (hf : Preordered P f) (n : Nat) :
    Preordered (fun l => l.length ≤ n ∧ ∀ a ∈ l, P a) (elementOrder f) := by
  induction n with
  | zero => exact preordered_nil.mono fun l h => List.eq_nil_of_length_eq_zero (by omega)
  | succ n ih =>
    refine (preordered_step hf ih).mono fun l h => ?_
    cases l with
    | nil => exact .inl rfl
    | cons a l =>
      refine .inr ⟨a, l, rfl, h.2 a List.mem_cons_self, ?_, fun b hb => ?_⟩
      · simpa using h.1
      · exact h.2 b (List.mem_cons_of_mem a hb)

theorem preordered_all (hf : Preordered P f) :
    Preordered (fun l => ∀ a ∈ l, P a) (elementOrder f) where
  turned {l r} hl hr :=
    (preordered_upTo hf (l.length + r.length)).turned ⟨by omega, hl⟩ ⟨by omega, hr⟩
  trans {l r t} hl hr ht :=
    (preordered_upTo hf (l.length + r.length + t.length)).trans ⟨by omega, hl⟩ ⟨by omega, hr⟩
      ⟨by omega, ht⟩

theorem preordered_null (hf : Preordered (fun v => v.isNull = false ∧ P v) f)
    {g : Value → Value → Outcome Ordering} (hg : ∀ a b, P a → P b →
      g a b = match a.isNull, b.isNull with
        | true, true => .ok .eq
        | true, false => .ok .lt
        | false, true => .ok .gt
        | false, false => f a b) : Preordered P g where
  turned {a b} ha hb := by
    rw [hg a b ha hb, hg b a hb ha]
    cases hna : a.isNull <;> cases hnb : b.isNull
    · exact hf.turned ⟨hna, ha⟩ ⟨hnb, hb⟩
    · exact ⟨.gt, rfl, rfl⟩
    · exact ⟨.lt, rfl, rfl⟩
    · exact ⟨.eq, rfl, rfl⟩
  trans {a b c} ha hb hc := by
    simp only [AtMost, hg a b ha hb, hg b c hb hc, hg a c ha hc]
    cases hna : a.isNull <;> cases hnb : b.isNull <;> cases hnc : c.isNull <;> simp
    exact fun o hab ho p hbc hp =>
      hf.trans ⟨hna, ha⟩ ⟨hnb, hb⟩ ⟨hnc, hc⟩ ⟨o, hab, ho⟩ ⟨p, hbc, hp⟩

theorem sameKind_preordered (elements : List Value → List Value → Outcome Ordering) {k : Kind}
    (hk : k.isPlain) : Preordered (fun v => v.kind = k) (sameKind elements) := by
  cases k with
  | null =>
    refine .of_payload (fun _ : Unit => .null) (compareOn fun _ => (0 : Nat)) (fun v h => ?_)
      fun _ _ => rfl
    cases v <;> cases h
    exact ⟨(), rfl⟩
  | boolean =>
    refine .of_payload .boolean (compareOn Bool.toNat) (fun v h => ?_) fun _ _ => rfl
    cases v <;> cases h
    exact ⟨_, rfl⟩
  | integer j =>
    refine .of_payload (.integer j) (compareOn Whole.val) (fun v h => ?_) fun _ _ => if_pos rfl
    cases v <;> cases h
    exact ⟨_, rfl⟩
  | numeric =>
    refine .of_payload .numeric Decimal.compare (fun v h => ?_) fun _ _ => rfl
    cases v <;> cases h
    exact ⟨_, rfl⟩
  | time =>
    refine .of_payload .time (compareOn id) (fun v h => ?_) fun _ _ => rfl
    cases v <;> cases h
    exact ⟨_, rfl⟩
  | timeTz =>
    have := transCmp_on (fun a b : Int × Int => instantOrder a.1 b.1 a.2 b.2)
      fun p : Int × Whole => (p.1 - p.2.val * nanosPerSecond, p.2.val)
    refine .of_payload (fun p : Int × Whole => .timeTz p.1 p.2) _ (fun v h => ?_) fun _ _ => rfl
    cases v <;> cases h
    exact ⟨(_, _), rfl⟩
  | date =>
    refine .of_payload .date (compareOn Whole.val) (fun v h => ?_) fun _ _ => rfl
    cases v <;> cases h
    exact ⟨_, rfl⟩
  | timestamp =>
    refine .of_payload (fun p : Whole × Int => .timestamp p.1 p.2)
      (compareLex (compareOn fun p => p.1.val) (compareOn fun p => p.2)) (fun v h => ?_)
      fun _ _ => rfl
    cases v <;> cases h
    exact ⟨(_, _), rfl⟩
  | timestampTz =>
    have := transCmp_on (fun a b : Int × Int => instantOrder a.1 b.1 a.2 b.2)
      fun p : Whole × Int × Whole => (utcNanos p.1.val p.2.1 p.2.2.val, p.2.2.val)
    refine .of_payload (fun p : Whole × Int × Whole => .timestampTz p.1 p.2.1 p.2.2) _
      (fun v h => ?_) fun _ _ => rfl
    cases v <;> cases h
    exact ⟨(_, _, _), rfl⟩
  | varbinary =>
    refine .of_payload .varbinary Bytes.compare (fun v h => ?_) fun _ _ => rfl
    cases v <;> cases h
    exact ⟨_, rfl⟩
  | string j =>
    refine .of_payload (.string j) (stringOrder j) (fun v h => ?_) fun _ _ => if_pos rfl
    cases v <;> cases h
    exact ⟨_, rfl⟩
  | lob j =>
    have := transCmp_on (lobOrder j) fun l : { l : Lob // l.kind = j } => l.val
    refine .of_payload (fun l : { l : Lob // l.kind = j } => .lob l.val)
      (fun a b => lobOrder j a.val b.val) (fun v h => ?_) ?_
    · cases v with
      | lob l => exact ⟨⟨l, Kind.lob.inj h⟩, rfl⟩
      | _ => cases h
    · rintro ⟨a, rfl⟩ ⟨b, hb⟩
      simp [sameKind, hb]
  | javaObject =>
    have := transCmp_on Bytes.compare fun p : Bytes × Held Value => p.1
    refine .of_payload (fun p : Bytes × Held Value => .object p.1 p.2) _ (fun v h => ?_)
      fun _ _ => rfl
    cases v <;> cases h
    exact ⟨(_, _), rfl⟩
  | uuid =>
    refine .of_payload .uuid Uuid.compare (fun v h => ?_) fun _ _ => rfl
    cases v <;> cases h
    exact ⟨_, rfl⟩
  | geometry =>
    have := transCmp_on Bytes.compare Geometry.data
    refine .of_payload .geometry _ (fun v h => ?_) fun _ _ => rfl
    cases v <;> cases h
    exact ⟨_, rfl⟩
  | json =>
    refine .of_payload .json Bytes.compare (fun v h => ?_) fun _ _ => rfl
    cases v <;> cases h
    exact ⟨_, rfl⟩
  | interval q =>
    refine .of_payload (.interval q) (compareOn fun f => f.toAbsolute q) (fun v h => ?_)
      fun _ _ => if_pos rfl
    cases v <;> cases h
    exact ⟨_, rfl⟩
  | float | array | row | resultSet | enum => simp [Kind.isPlain] at hk

/-- Operands of one kind are coerced to themselves; enumerators are if their domain is one. -/
theorem coerce_same (s : Session) {l r : Value} (hk : l.kind = r.kind)
    (hd : ∀ d e, l = .enum d → r = .enum e → d.domain = e.domain) : coerce s l r = .ok (l, r) := by
  by_cases henum : l.kind = .enum
  · cases l with
    | enum d =>
      cases r with
      | enum e =>
        have hde := hd d e rfl rfl
        simp [coerce, coerceTo, context, higherKind_some, sharedDomain, EnumDomain.shared, hde,
          convert, Value.isNull, Extension.cast, EnumDomain.cast, both]
      | _ => cases hk
    | _ => cases henum
  · simp [coerce, hk, hk ▸ henum]

theorem afterCoercion_same (s : Session) (f : List Value → List Value → Outcome Ordering)
    {l r : Value} (hk : l.kind = r.kind)
    (hd : ∀ d e, l = .enum d → r = .enum e → d.domain = e.domain) :
    afterCoercion f s l r = sameKind f l r := by
  simp [afterCoercion, coerce_same s hk hd]

/-- Where coercion does nothing, the total order is that of one kind, with NULL first. -/
theorem preordered_of_sameKind {s : Session} {k : Kind} (hk : k ≠ .resultSet)
    (hP : ∀ v, P v → v.isNull = false → v.kind = k)
    (hd : ∀ d e, P (.enum d) → P (.enum e) → d.domain = e.domain)
    (h : Preordered (fun v => v.isNull = false ∧ P v) (sameKind (elementOrder (total s)))) :
    Preordered P (total s) := by
  refine preordered_null (f := afterCoercion (elementOrder (total s)) s) (h.congr ?_) ?_
  · rintro a b ⟨hna, ha⟩ ⟨hnb, hb⟩
    refine afterCoercion_same s _ ((hP a ha hna).trans (hP b hb hnb).symm) ?_
    rintro d e rfl rfl
    exact hd d e ha hb
  · intro a b ha hb
    have hsame : isSameResult a b = false := by
      cases a with
      | resultSet m c rows => exact absurd (hP _ ha rfl).symm hk
      | _ => rfl
    rw [total_eq, totalStep, hsame]
    rfl

theorem plain_preordered (s : Session) {k : Kind} (hk : k.isPlain) :
    Preordered (ColumnType.plain k hk).Has (total s) := by
  refine preordered_of_sameKind (k := k) ?_ (fun v h hn => ColumnType.has_plain hn h) ?_ ?_
  · rintro rfl
    cases hk
  · intro d e h
    cases ColumnType.has_plain rfl h
    cases hk
  · exact (sameKind_preordered _ hk).mono fun v h => ColumnType.has_plain h.1 h.2

theorem enum_preordered (s : Session) (d : EnumDomain) :
    Preordered (ColumnType.enum d).Has (total s) := by
  refine preordered_of_sameKind (k := .enum) (by decide) (fun v h hn => ?_) ?_ ?_
  · obtain ⟨e, rfl, -⟩ := ColumnType.has_enum hn h
    rfl
  · intro e e' h h'
    obtain ⟨_, he, hd⟩ := ColumnType.has_enum rfl h
    obtain ⟨_, he', hd'⟩ := ColumnType.has_enum rfl h'
    cases he
    cases he'
    rw [hd, hd']
  · refine .of_payload .enum (compareOn Enumerator.ordinal) (fun v h => ?_) fun _ _ => rfl
    obtain ⟨e, rfl, -⟩ := ColumnType.has_enum h.1 h.2
    exact ⟨e, rfl⟩

theorem array_preordered {s : Session} {t : ColumnType} (h : Preordered t.Has (total s)) :
    Preordered (ColumnType.array t).Has (total s) := by
  refine preordered_of_sameKind (k := .array) (by decide) (fun v h hn => ?_) ?_ ?_
  · obtain ⟨items, rfl, -⟩ := ColumnType.has_array hn h
    rfl
  · intro d e h
    obtain ⟨_, he, -⟩ := ColumnType.has_array rfl h
    cases he
  · refine .of_make .array (preordered_all h) (fun v h => ?_) fun _ _ _ _ => rfl
    exact ColumnType.has_array h.1 h.2

theorem row_preordered {s : Session} {types : List ColumnType}
    (h : Preordered (ColumnType.HasEach types) (elementOrder (total s))) :
    Preordered (ColumnType.row types).Has (total s) := by
  refine preordered_of_sameKind (k := .row) (by decide) (fun v h hn => ?_) ?_ ?_
  · obtain ⟨items, rfl, -⟩ := ColumnType.has_row hn h
    rfl
  · intro d e h
    obtain ⟨_, he, -⟩ := ColumnType.has_row rfl h
    cases he
  · refine .of_make .row h (fun v h => ?_) fun a b ha hb => ?_
    · exact ColumnType.has_row h.1 h.2
    · exact if_pos ((ColumnType.hasEach_length ha).trans (ColumnType.hasEach_length hb).symm)

mutual

theorem total_preordered (s : Session) : (t : ColumnType) → Preordered t.Has (total s)
  | .plain _ hk => plain_preordered s hk
  | .enum d => enum_preordered s d
  | .array t => array_preordered (total_preordered s t)
  | .row types => row_preordered (fields_preordered s types)

theorem fields_preordered (s : Session) :
    (types : List ColumnType) → Preordered (ColumnType.HasEach types) (elementOrder (total s))
  | [] => preordered_nil.mono fun l h => by
    cases l with
    | nil => rfl
    | cons v l => cases h
  | t :: types =>
    (preordered_step (total_preordered s t) (fields_preordered s types)).mono fun l h => by
      cases l with
      | nil => exact .inl rfl
      | cons v l => exact .inr ⟨v, l, rfl, h⟩

end

/-- On the values of a column the total order never fails, is reflexive and transitive, turns round
with its operands, and puts NULL below everything else. -/
theorem column_order (s : Session) (t : ColumnType) {a b c : Value} (ha : t.Has a) (hb : t.Has b)
    (hc : t.Has c) :
    (∃ o, total s a b = .ok o ∧ total s b a = .ok o.swap) ∧ total s a a = .ok .eq ∧
      (AtMost (total s) a b → AtMost (total s) b c → AtMost (total s) a c) ∧
        (a ≠ .null → total s .null a = .ok .lt) := by
  have h := total_preordered s t
  refine ⟨h.turned ha hb, h.self ha, h.trans ha hb hc, fun hna => ?_⟩
  have hna : a.isNull = false := by simpa [← Value.isNull_iff] using hna
  rw [total_eq, totalStep, hna]
  rfl

theorem column_order_of_rows :
    ∃ (t : ColumnType) (a b c : Value), t.Has a ∧ t.Has b ∧ t.Has c ∧ a ≠ .null ∧
      AtMost (total (.system 0 0)) a b ∧ AtMost (total (.system 0 0)) b c ∧
        AtMost (total (.system 0 0)) a c ∧ total (.system 0 0) .null a = .ok .lt := by
  let t : ColumnType :=
    .array (.row [.plain .timestampTz rfl, .plain (.string .varcharIgnoreCase) rfl])
  let a : Value := .array [.row [.timestampTz (.int 0) 0 (.int 3600), .null], .null]
  let b : Value :=
    .array [.row [.timestampTz (.int 0) 0 (.int 3600), .string .varcharIgnoreCase "A"]]
  let c : Value := .array [.row [.timestampTz (.int 0) 0 (.int 0), .string .varcharIgnoreCase "a"]]
  have ha : t.Has a := by simp [t, a, ColumnType.Has, ColumnType.HasEach]
  have hb : t.Has b := by simp [t, b, ColumnType.Has, ColumnType.HasEach]
  have hc : t.Has c := by simp [t, c, ColumnType.Has, ColumnType.HasEach]
  have hab : AtMost (total (.system 0 0)) a b := ⟨.lt, by rfl, rfl⟩
  have hbc : AtMost (total (.system 0 0)) b c := ⟨.lt, by rfl, rfl⟩
  have h := column_order (.system 0 0) t ha hb hc
  exact ⟨t, a, b, c, ha, hb, hc, by simp [a], hab, hbc, h.2.2.1 hab hbc, h.2.2.2 (by simp [a])⟩

end Compare

end Datum
