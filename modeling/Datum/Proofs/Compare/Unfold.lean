import Datum.Compare
import Datum.Proofs.Convert.Kind

/-!
# Unfolding of the total order

The depth to which two values are compared makes no difference once it exceeds the depth of both
together (`totalWithin_eq_total`), since coercion never deepens the elements of its operands. So the
total order satisfies the equation in which its elements are compared by itself (`total_eq`). Of two
kinds that are no enumerators the lower is converted to the higher (`withCoercion_of_rank_lt`).
-/

set_option autoImplicit false

namespace Datum

namespace Value

theorem depth_le_depths {v : Value} {items : List Value} (h : v ∈ items) :
    v.depth ≤ depths items := by
  induction items with
  | nil => simp at h
  | cons w rest ih =>
    simp only [depths]
    rcases List.mem_cons.1 h with rfl | h
    · omega
    · have := ih h
      omega

theorem depth_lt_of_mem {v a : Value} {items : List Value} (hv : v.elements? = some items)
    (ha : a ∈ items) : a.depth < v.depth := by
  have h := depth_le_depths ha
  cases v with
  | array l | row l =>
    simp only [elements?, Option.some.injEq] at hv
    subst hv
    simp only [depth]
    omega
  | _ => simp [elements?] at hv

theorem kind_of_elements? {v : Value} {items : List Value} (h : v.elements? = some items) :
    v = .array items ∨ v = .row items := by
  cases v <;> simp_all [elements?]

end Value

namespace Convert

theorem toArray_elements {v : Value} :
    Ensures (toArray v) fun w =>
      ∀ items, w.elements? = some items → ∀ a ∈ items, a.depth ≤ v.depth := by
  unfold toArray
  split
  next l =>
    simp only [pure_eq_ok, ensures_ok]
    intro items hw a ha
    cases hw
    exact Nat.le_of_lt (Value.depth_lt_of_mem (v := .row l) rfl ha)
  · simp [ensures_of_forall, Value.elements?, Value.depth]
  · simp [ensures_of_forall, Value.elements?, Value.depth]
  · simp [Value.elements?]

theorem toRow_elements {v : Value} (hv : v.kind ≠ .resultSet) :
    Ensures (toRow v) fun w =>
      ∀ items, w.elements? = some items → ∀ a ∈ items, a.depth ≤ v.depth := by
  unfold toRow
  split <;> simp_all [Value.elements?]

theorem cast_elements? (e : Extension) (v : Value) :
    Ensures (e.cast v) (·.elements? = none) := by
  cases e with
  | enum d =>
    simp only [Extension.cast, EnumDomain.cast]
    split
    · simp [Value.elements?]
    · split <;> simp [ensures_of_forall, Value.elements?]
    · simp [ensures_of_forall, Value.elements?]
    · simp [ensures_of_forall, Value.elements?]
    · exact ensures_unsupported _ _ _ _
  | geometry c =>
    simp only [Extension.cast, GeometryConstraint.cast]
    split
    · simp [Value.elements?]
    · simp [ensures_of_forall, Value.elements?]
    · exact ensures_unsupported _ _ _ _

end Convert

/-- The elements of a converted value are no deeper than the value, and less deep if it had the
target kind. -/
theorem convert_elements {v w : Value} {k : Kind} {c : ConvertContext} {items : List Value}
    (hv : v.kind = .resultSet → k = .resultSet) (h : convert v k c = .ok w)
    (hw : w.elements? = some items) :
    ∀ a ∈ items, a.depth ≤ v.depth ∧ (v.kind = k → a.depth < v.depth) := by
  unfold convert at h
  split at h
  · cases h
    intro a ha
    have := Value.depth_lt_of_mem hw ha
    omega
  split at h
  · cases he : c.extension with
    | none =>
      rw [he] at h
      cases h
      intro a ha
      have := Value.depth_lt_of_mem hw ha
      omega
    | some e =>
      rw [he] at h
      simp [Convert.cast_elements? e v w h] at hw
  next hn hk =>
    intro a ha
    refine ⟨?_, fun hk' => absurd hk' hk⟩
    rcases Convert.byRule_kind v k c w h with hkind | ⟨j, data, -, rfl⟩ | ⟨-, rfl, -⟩
    · rcases Value.kind_of_elements? hw with rfl | rfl
      · subst hkind
        exact Convert.toArray_elements _ h _ hw a ha
      · subst hkind
        refine Convert.toRow_elements ?_ _ h _ hw a ha
        intro hr
        simp [hv hr] at hk hr
        exact hk hr
    · simp [Value.elements?] at hw
    · simp [Value.elements?] at hw

theorem Kind.ne_of_rank_lt {j k : Kind} (h : j.rank < k.rank) : j ≠ k := by
  rintro rfl
  exact Nat.lt_irrefl _ h

namespace Compare

theorem higherKind_some (j k : Kind) :
    higherKind (some j) (some k) = .ok (if k.rank ≤ j.rank then j else k) := by
  simp [higherKind]

theorem both_eq_ok {α : Type} {x y : Outcome α} {a b : α} :
    both x y = .ok (a, b) ↔ x = .ok a ∧ y = .ok b := by
  rcases x with (_ | _) | a <;> rcases y with (_ | _) | b <;> simp [both]

theorem coerce_eq_ok {s : Session} {l r l' r' : Value} (h : coerce s l r = .ok (l', r')) :
    (l.kind = r.kind ∧ l.kind ≠ .enum ∧ l' = l ∧ r' = r) ∨
      ∃ k c, (k = l.kind ∨ k = r.kind) ∧ l.kind.rank ≤ k.rank ∧ r.kind.rank ≤ k.rank ∧
        convert l k c = .ok l' ∧ convert r k c = .ok r' := by
  unfold coerce at h
  split at h
  next hk =>
    cases h
    exact .inl (by simpa using hk)
  next hk =>
    obtain ⟨k, hh, h⟩ := bind_eq_ok.1 h
    obtain ⟨c, -, h⟩ := bind_eq_ok.1 h
    obtain ⟨hl, hr⟩ := both_eq_ok.1 h
    simp only [higherKind_some, Except.ok.injEq] at hh
    split at hh
    next hle =>
      subst hh
      exact .inr ⟨_, c, .inl rfl, Nat.le_refl _, hle, hl, hr⟩
    next hlt =>
      subst hh
      exact .inr ⟨_, c, .inr rfl, by omega, Nat.le_refl _, hl, hr⟩

theorem coerce_elements {s : Session} {l r l' r' : Value} {a b : List Value}
    (h : coerce s l r = .ok (l', r')) (ha : l'.elements? = some a) (hb : r'.elements? = some b) :
    ∀ x ∈ a, ∀ y ∈ b, x.depth + y.depth < l.depth + r.depth := by
  intro x hx y hy
  rcases coerce_eq_ok h with ⟨-, -, rfl, rfl⟩ | ⟨k, c, hk, hlk, hrk, hl, hr⟩
  · have := Value.depth_lt_of_mem ha hx
    have := Value.depth_lt_of_mem hb hy
    omega
  · have top {v : Value} (hv : v.kind.rank ≤ k.rank) (hs : v.kind = .resultSet) :
        k = .resultSet := by
      rw [hs] at hv
      cases k with
      | interval q => cases q <;> simp [Kind.rank] at hv
      | integer j | float j | string j | lob j => cases j <;> simp [Kind.rank] at hv
      | resultSet => rfl
      | _ => simp [Kind.rank] at hv
    have hx := convert_elements (top hlk) hl ha x hx
    have hy := convert_elements (top hrk) hr hb y hy
    rcases hk with rfl | rfl
    · have := hx.2 rfl
      omega
    · have := hy.2 rfl
      omega

theorem elementOrder_congr {f g : Value → Value → Outcome Ordering} {a b : List Value}
    (h : ∀ x ∈ a, ∀ y ∈ b, f x y = g x y) : elementOrder f a b = elementOrder g a b := by
  induction a generalizing b with
  | nil => cases b <;> rfl
  | cons x a ih =>
    cases b with
    | nil => rfl
    | cons y b =>
      have ih := ih (b := b) fun x hx y hy => h x (by simp [hx]) y (by simp [hy])
      simp only [elementOrder, h x (by simp) y (by simp), ih]

theorem sameKind_congr {f g : List Value → List Value → Outcome Ordering} {l r : Value}
    (h : ∀ a b, l.elements? = some a → r.elements? = some b → f a b = g a b) :
    sameKind f l r = sameKind g l r := by
  unfold sameKind
  split <;> first | rfl | simp [h _ _ rfl rfl]

theorem afterCoercion_congr {s : Session} {f g : Value → Value → Outcome Ordering} {l r : Value}
    (h : ∀ x y, x.depth + y.depth < l.depth + r.depth → f x y = g x y) :
    afterCoercion (elementOrder f) s l r = afterCoercion (elementOrder g) s l r := by
  unfold afterCoercion
  cases hc : coerce s l r with
  | error e => rfl
  | ok p =>
    obtain ⟨l', r'⟩ := p
    refine sameKind_congr fun a b ha hb => elementOrder_congr fun x hx y hy => ?_
    exact h x y (coerce_elements hc ha hb x hx y hy)

/-- The step of the total order: what is one result is equal, NULL comes first, and the rest is
compared after coercion. -/
def totalStep (order : Value → Value → Outcome Ordering) (s : Session) (l r : Value) :
    Outcome Ordering :=
  if isSameResult l r then .ok .eq
  else match l.isNull, r.isNull with
    | true, true => .ok .eq
    | true, false => .ok .lt
    | false, true => .ok .gt
    | false, false => afterCoercion (elementOrder order) s l r

theorem totalStep_congr {s : Session} {f g : Value → Value → Outcome Ordering} {l r : Value}
    (h : ∀ x y, x.depth + y.depth < l.depth + r.depth → f x y = g x y) :
    totalStep f s l r = totalStep g s l r := by
  unfold totalStep
  rw [afterCoercion_congr h]

/-- Any two depths beyond that of the operands give the same order. -/
theorem totalWithin_eq (s : Session) {m n : Nat} {l r : Value} (hm : l.depth + r.depth < m)
    (hn : l.depth + r.depth < n) : totalWithin s m l r = totalWithin s n l r := by
  induction m generalizing n l r with
  | zero => omega
  | succ m ih =>
    cases n with
    | zero => omega
    | succ n =>
      change totalStep (totalWithin s m) s l r = totalStep (totalWithin s n) s l r
      exact totalStep_congr fun x y hxy => ih (by omega) (by omega)

theorem totalWithin_eq_total {s : Session} {n : Nat} {l r : Value} (h : l.depth + r.depth < n) :
    totalWithin s n l r = total s l r :=
  totalWithin_eq s h (Nat.lt_succ_self _)

theorem total_eq (s : Session) (l r : Value) : total s l r = totalStep (total s) s l r := by
  change totalStep (totalWithin s (l.depth + r.depth)) s l r = _
  exact totalStep_congr fun x y hxy => totalWithin_eq_total hxy

theorem context_plain {k : Kind} (h : k ≠ .enum) (s : Session) (l r : Value) :
    context k s l r = .ok (.ofSession s) := by
  rw [context, if_neg h]

section Rank

variable {s : Session} {v w : Value}

theorem coerce_of_rank_lt (hlt : v.kind.rank < w.kind.rank) (hw : w.kind ≠ .enum) :
    coerce s v w = convert v w.kind (.ofSession s) >>= fun v' => .ok (v', w) := by
  have hself : convert w w.kind (.ofSession s) = .ok w := convert_self rfl
  simp only [coerce, Kind.ne_of_rank_lt hlt, decide_false, Bool.false_and, Bool.false_eq_true,
    if_false, higherKind_some, ok_bind, Nat.not_le.2 hlt, coerceTo, context_plain hw, hself]
  rcases convert v w.kind (.ofSession s) with (_ | _) | v' <;> rfl

theorem coerce_of_lt_rank (hlt : w.kind.rank < v.kind.rank) (hv : v.kind ≠ .enum) :
    coerce s v w = convert w v.kind (.ofSession s) >>= fun w' => .ok (v, w') := by
  have hself : convert v v.kind (.ofSession s) = .ok v := convert_self rfl
  simp only [coerce, (Kind.ne_of_rank_lt hlt).symm, decide_false, Bool.false_and,
    Bool.false_eq_true, if_false, higherKind_some, ok_bind, Nat.le_of_lt hlt, if_true, coerceTo,
    context_plain hv, hself]
  rcases convert w v.kind (.ofSession s) with (_ | _) | w' <;> rfl

theorem withCoercion_of_rank_lt (hlt : v.kind.rank < w.kind.rank) (hw : w.kind ≠ .enum) :
    withCoercion s v w = convert v w.kind (.ofSession s) >>= fun v' => typeSafe s v' w := by
  rw [withCoercion, afterCoercion, coerce_of_rank_lt hlt hw]
  rcases convert v w.kind (.ofSession s) with _ | v' <;> rfl

theorem withCoercion_of_lt_rank (hlt : w.kind.rank < v.kind.rank) (hv : v.kind ≠ .enum) :
    withCoercion s v w = convert w v.kind (.ofSession s) >>= fun w' => typeSafe s v w' := by
  rw [withCoercion, afterCoercion, coerce_of_lt_rank hlt hv]
  rcases convert w v.kind (.ofSession s) with _ | w' <;> rfl

end Rank

end Compare

end Datum
