import Datum.Proofs.Compare.Unfold
import Datum.Proofs.EnumDomain
import Datum.Proofs.Value

/-!
# Antisymmetry of comparison

Operands of any kinds compare the other way round when they change places, and one comparison fails
exactly when the other one does. The common kind and the shared domain of the operands do not depend
on their order, each order of one kind is antisymmetric, and lists of elements inherit the property.
-/

set_option autoImplicit false

namespace Datum

open Std (OrientedCmp)

/-- The second outcome is the first one turned round, or both fail. -/
def Mirrored {α : Type} (turn : α → α) (x y : Outcome α) : Prop :=
  (∃ a, x = .ok a ∧ y = .ok (turn a)) ∨ ((∃ e, x = .error e) ∧ ∃ e, y = .error e)

namespace Mirrored

variable {α β : Type} {turn : α → α} {turn' : β → β}

theorem ok (a : α) : Mirrored turn (.ok a) (.ok (turn a)) := .inl ⟨a, rfl, rfl⟩

theorem failed (e e' : ValueError) : Mirrored turn (fail e) (fail e') := .inr ⟨⟨_, rfl⟩, _, rfl⟩

theorem bind {x y : Outcome α} {f g : α → Outcome β} (h : Mirrored turn x y)
    (hf : ∀ a, Mirrored turn' (f a) (g (turn a))) : Mirrored turn' (x >>= f) (y >>= g) := by
  rcases h with ⟨a, rfl, rfl⟩ | ⟨⟨e, rfl⟩, e', rfl⟩
  · exact hf a
  · exact .inr ⟨⟨e, rfl⟩, e', rfl⟩

theorem bind_same (x : Outcome α) {f g : α → Outcome β} (hf : ∀ a, Mirrored turn' (f a) (g a)) :
    Mirrored turn' (x >>= f) (x >>= g) := by
  cases x with
  | error e => exact .inr ⟨⟨e, rfl⟩, e, rfl⟩
  | ok a => exact hf a

end Mirrored

namespace Kind

theorem find_rank (k : Kind) : all.find? (fun j => j.rank == k.rank) = some k := by
  cases k with
  | integer j => cases j <;> rfl
  | float j => cases j <;> rfl
  | string j => cases j <;> rfl
  | lob j => cases j <;> rfl
  | interval q => cases q <;> rfl
  | _ => rfl

theorem rank_inj {j k : Kind} (h : j.rank = k.rank) : j = k := by
  have hj := find_rank j
  rw [h, find_rank k] at hj
  exact (Option.some.inj hj).symm

end Kind

namespace Compare

theorem higherKind_comm (j k : Kind) :
    higherKind (some j) (some k) = higherKind (some k) (some j) := by
  simp only [higherKind_some]
  by_cases hjk : j.rank = k.rank
  · rw [Kind.rank_inj hjk]
  by_cases hle : k.rank ≤ j.rank
  · rw [if_pos hle, if_neg (by omega)]
  · rw [if_neg hle, if_pos (by omega)]

theorem isSameResult_comm (l r : Value) : isSameResult l r = isSameResult r l := by
  cases l <;> cases r <;> simp [isSameResult, eq_comm, Bool.beq_eq_decide_eq]

theorem sharedDomain_comm (l r : Value) : sharedDomain l r = sharedDomain r l := by
  cases l <;> cases r <;> simp [sharedDomain, EnumDomain.shared_comm]

theorem context_comm (k : Kind) (s : Session) (l r : Value) :
    context k s l r = context k s r l := by
  simp only [context, sharedDomain_comm l r]

theorem both_mirrored {α : Type} (x y : Outcome α) : Mirrored Prod.swap (both x y) (both y x) := by
  rcases x with (_ | _) | a <;> rcases y with (_ | _) | b <;> simp [both, Mirrored, fail]

theorem coerce_mirrored (s : Session) (l r : Value) :
    Mirrored Prod.swap (coerce s l r) (coerce s r l) := by
  have hsame : (r.kind = l.kind && r.kind != .enum) = (l.kind = r.kind && l.kind != .enum) := by
    by_cases h : l.kind = r.kind
    · simp [h]
    · simp [h, Ne.symm h]
  simp only [coerce, hsame, higherKind_comm r.kind l.kind, coerceTo]
  split
  · exact .ok _
  · refine .bind_same _ fun k => ?_
    rw [context_comm k s r l]
    exact .bind_same _ fun c => both_mirrored _ _

theorem mirrored_order {α : Type} (cmp : α → α → Ordering) [OrientedCmp cmp] (a b : α) :
    Mirrored Ordering.swap (.ok (cmp a b)) (.ok (cmp b a)) := by
  have hswap : cmp b a = (cmp a b).swap := OrientedCmp.eq_swap
  rw [hswap]
  exact .ok _

theorem elementOrder_mirrored {f : Value → Value → Outcome Ordering}
    (h : ∀ x y, Mirrored Ordering.swap (f x y) (f y x)) (a b : List Value) :
    Mirrored Ordering.swap (elementOrder f a b) (elementOrder f b a) := by
  induction a generalizing b with
  | nil =>
    cases b with
    | nil => exact .ok Ordering.eq
    | cons y b => exact .ok Ordering.lt
  | cons x a ih =>
    cases b with
    | nil => exact .ok Ordering.gt
    | cons y b =>
      simp only [elementOrder]
      refine .bind (h x y) fun o => ?_
      cases o with
      | lt => exact .ok Ordering.lt
      | eq => exact ih b
      | gt => exact .ok Ordering.gt

theorem mirrored_if {α : Type} {turn : α → α} {p q : Prop} [Decidable p] [Decidable q]
    {x y : Outcome α} {e e' : ValueError} (hpq : p ↔ q) (h : p → Mirrored turn x y) :
    Mirrored turn (if p then x else fail e) (if q then y else fail e') := by
  by_cases hp : p
  · rw [if_pos hp, if_pos (hpq.1 hp)]
    exact h hp
  · rw [if_neg hp, if_neg fun hq => hp (hpq.2 hq)]
    exact .failed _ _

theorem texts_mirrored (x y : Outcome Text) :
    Mirrored Ordering.swap (do return (← x).compare (← y)) (do return (← y).compare (← x)) := by
  cases x with
  | error e =>
    cases y with
    | error e' => exact .inr ⟨⟨e, rfl⟩, e', rfl⟩
    | ok t => exact .inr ⟨⟨e, rfl⟩, e, rfl⟩
  | ok s =>
    cases y with
    | error e => exact .inr ⟨⟨e, rfl⟩, e, rfl⟩
    | ok t => exact mirrored_order Text.compare s t

theorem sameKind_mirrored {f : List Value → List Value → Outcome Ordering}
    (h : ∀ a b, Mirrored Ordering.swap (f a b) (f b a)) (l r : Value) :
    Mirrored Ordering.swap (sameKind f l r) (sameKind f r l) := by
  unfold sameKind
  split
  · exact .ok Ordering.eq
  next a b => exact mirrored_order (compareOn Bool.toNat) a b
  next j a k b => exact mirrored_if eq_comm fun _ => mirrored_order (compareOn Whole.val) a b
  next a b => exact mirrored_order Decimal.compare a b
  next j a k b => exact mirrored_if eq_comm fun _ => mirrored_order Double.compare a b
  next a b => exact mirrored_order (compareOn Whole.val) a b
  next a b => exact mirrored_order (compareOn id) a b
  next a o b p =>
    exact mirrored_order (fun a b : Int × Int => instantOrder a.1 b.1 a.2 b.2)
      (a - o.val * nanosPerSecond, o.val) (b - p.val * nanosPerSecond, p.val)
  next d a e b =>
    exact mirrored_order (compareLex (compareOn Prod.fst) (compareOn Prod.snd))
      (d.val, a) (e.val, b)
  next d a o e b p =>
    exact mirrored_order (fun a b : Int × Int => instantOrder a.1 b.1 a.2 b.2)
      (utcNanos d.val a o.val, o.val) (utcNanos e.val b p.val, p.val)
  next a b => exact mirrored_order Bytes.compare a b
  next j s k t =>
    refine mirrored_if eq_comm fun hjk => ?_
    rw [hjk]
    exact mirrored_order (stringOrder k) s t
  next a b =>
    refine mirrored_if eq_comm fun hab => ?_
    rw [hab]
    exact mirrored_order (lobOrder b.kind) a b
  next a b => exact h a b
  next a b => exact mirrored_if eq_comm fun _ => h a b
  next => exact texts_mirrored _ _
  next a _ b _ => exact mirrored_order Bytes.compare a b
  next a b => exact mirrored_order Uuid.compare a b
  next a b =>
    have := transCmp_on Bytes.compare Geometry.data
    exact mirrored_order (fun a b : Geometry => Bytes.compare a.data b.data) a b
  next a b => exact mirrored_order (compareOn Enumerator.ordinal) a b
  next a b => exact mirrored_order Bytes.compare a b
  next p a q b =>
    refine mirrored_if eq_comm fun hpq => ?_
    rw [hpq]
    exact mirrored_order (compareOn fun i : IntervalFields => i.toAbsolute q) a b
  next =>
    split <;> first | exact .failed _ _ | grind

theorem afterCoercion_mirrored {f : List Value → List Value → Outcome Ordering}
    (h : ∀ a b, Mirrored Ordering.swap (f a b) (f b a)) (s : Session) (l r : Value) :
    Mirrored Ordering.swap (afterCoercion f s l r) (afterCoercion f s r l) :=
  (coerce_mirrored s l r).bind fun p => sameKind_mirrored h p.1 p.2

/-- One step of the total order keeps what its order of elements has. -/
theorem totalStep_mirrored {f : Value → Value → Outcome Ordering}
    (h : ∀ x y, Mirrored Ordering.swap (f x y) (f y x)) (s : Session) (l r : Value) :
    Mirrored Ordering.swap (totalStep f s l r) (totalStep f s r l) := by
  simp only [totalStep, isSameResult_comm r l]
  split
  · exact .ok Ordering.eq
  · cases l.isNull <;> cases r.isNull
    · exact afterCoercion_mirrored (elementOrder_mirrored h) s l r
    · exact .ok Ordering.gt
    · exact .ok Ordering.lt
    · exact .ok Ordering.eq

theorem totalWithin_mirrored (s : Session) (n : Nat) (l r : Value) :
    Mirrored Ordering.swap (totalWithin s n l r) (totalWithin s n r l) := by
  induction n generalizing l r with
  | zero => exact .ok Ordering.eq
  | succ n ih => exact totalStep_mirrored ih s l r

theorem total_mirrored (s : Session) (l r : Value) :
    Mirrored Ordering.swap (total s l r) (total s r l) := by
  simp only [total, Nat.add_comm r.depth]
  exact totalWithin_mirrored s _ l r

theorem withCoercion_mirrored (s : Session) (l r : Value) :
    Mirrored Ordering.swap (withCoercion s l r) (withCoercion s r l) :=
  afterCoercion_mirrored (elementOrder_mirrored (total_mirrored s)) s l r

/-- Beside pairs of arrays and pairs of rows, values compare as a whole unless one is NULL. -/
theorem withNull_eq (s : Session) (forEquality : Bool) {l r : Value}
    (harray : ∀ a b, l = .array a → r = .array b → False)
    (hrow : ∀ a b, l = .row a → r = .row b → False) :
    withNull s forEquality l r =
      if l.isNull || r.isNull then .ok none else do return some (← withCoercion s l r) := by
  unfold withNull
  split
  · rfl
  · exact (harray _ _ rfl rfl).elim
  · exact (hrow _ _ rfl rfl).elim
  next hl _ _ =>
    have hl : l.isNull = false := by
      cases l with
      | null => exact (hl rfl).elim
      | _ => rfl
    simp [hl]

theorem elementsWithNull_mirrored {s : Session} {forEquality : Bool} {l : List Value}
    (h : ∀ a ∈ l, ∀ b, Mirrored (Option.map Ordering.swap) (withNull s forEquality a b)
      (withNull s forEquality b a)) (isOpen : Bool) (r : List Value) :
    Mirrored (Option.map Ordering.swap) (elementsWithNull s forEquality isOpen l r)
      (elementsWithNull s forEquality isOpen r l) := by
  induction l generalizing isOpen r with
  | nil =>
    cases r with
    | nil => cases isOpen <;> exact .ok _
    | cons b r => exact .ok (some Ordering.lt)
  | cons a l ih =>
    cases r with
    | nil => exact .ok (some Ordering.gt)
    | cons b r =>
      have ih := ih fun x hx => h x (List.mem_cons_of_mem a hx)
      simp only [elementsWithNull]
      refine .bind (h a List.mem_cons_self b) fun o => ?_
      rcases o with _ | o
      · simp only [Option.map_none]
        split
        · exact ih true r
        · exact .ok none
      · cases o with
        | lt => exact .ok (some Ordering.lt)
        | eq => exact ih isOpen r
        | gt => exact .ok (some Ordering.gt)

theorem withNull_mirrored (s : Session) (forEquality : Bool) (l r : Value) :
    Mirrored (Option.map Ordering.swap) (withNull s forEquality l r)
      (withNull s forEquality r l) := by
  -- on the depth of the left operand: its elements are less deep
  generalize hn : l.depth = n
  induction n using Nat.strongRecOn generalizing l r with
  | ind n ih =>
    have hmem {items : List Value} (hl : l.elements? = some items) :
        ∀ a ∈ items, ∀ b, Mirrored (Option.map Ordering.swap) (withNull s forEquality a b)
          (withNull s forEquality b a) :=
      fun a ha b => ih a.depth (by have := Value.depth_lt_of_mem hl ha; omega) a b rfl
    by_cases harray : ∃ a b, l = .array a ∧ r = .array b
    · obtain ⟨a, b, rfl, rfl⟩ := harray
      simp only [withNull]
      exact elementsWithNull_mirrored (hmem rfl) false b
    by_cases hrow : ∃ a b, l = .row a ∧ r = .row b
    · obtain ⟨a, b, rfl, rfl⟩ := hrow
      simp only [withNull]
      exact mirrored_if eq_comm fun _ => elementsWithNull_mirrored (hmem rfl) false b
    rw [withNull_eq s forEquality (fun a b hl hr => harray ⟨a, b, hl, hr⟩)
        (fun a b hl hr => hrow ⟨a, b, hl, hr⟩),
      withNull_eq s forEquality (fun a b hl hr => harray ⟨b, a, hr, hl⟩)
        (fun a b hl hr => hrow ⟨b, a, hr, hl⟩), Bool.or_comm r.isNull]
    split
    · exact .ok none
    · exact (withCoercion_mirrored s l r).bind fun o => .ok (some o)

/-- In the total order, with coercion and with NULL alike, the order of two operands is turned round
when they change places, and it fails or stays open on both sides or on neither. -/
theorem comparison_antisymmetric (s : Session) (l r : Value) :
    Mirrored Ordering.swap (total s l r) (total s r l) ∧
      Mirrored Ordering.swap (withCoercion s l r) (withCoercion s r l) ∧
        ∀ forEquality, Mirrored (Option.map Ordering.swap) (withNull s forEquality l r)
          (withNull s forEquality r l) :=
  ⟨total_mirrored s l r, withCoercion_mirrored s l r, fun e => withNull_mirrored s e l r⟩

end Compare

end Datum
