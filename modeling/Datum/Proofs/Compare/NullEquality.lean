import Datum.Proofs.Compare.Refinement
import Mathlib.Data.List.Forall2

/-!
# NULL and equality

Three-valued comparison never finds two values equal of which one holds a NULL, as long as arrays
meet arrays and rows meet rows. An array that meets a row, or a result that meets either, is
compared as a whole after coercion, in an order for which NULL is equal to NULL.
-/

set_option autoImplicit false

namespace Datum

namespace Value

def Mixed : Value → Value → Prop
  | .array _, .row _ | .row _, .array _ => True
  | .array _, .resultSet _ _ _ | .resultSet _ _ _, .array _ => True
  | .row _, .resultSet _ _ _ | .resultSet _ _ _, .row _ => True
  | _, _ => False

/-- Two values that meet when two others are compared element by element: the operands, or what
meets where an array meets an array or a row meets a row. -/
inductive Meets (x y : Value) : Value → Value → Prop where
  | self : Meets x y x y
  | array {a b : List Value} {v w : Value} : (v, w) ∈ a.zip b → Meets x y v w →
      Meets x y (.array a) (.array b)
  | row {a b : List Value} {v w : Value} : (v, w) ∈ a.zip b → Meets x y v w →
      Meets x y (.row a) (.row b)

/-- No array, row or result: what becomes the only element of an array or a row that it meets. -/
def IsSingle (v : Value) : Prop := v.kind ≠ .array ∧ v.kind ≠ .row ∧ v.kind ≠ .resultSet

theorem anyContainsNull_iff {items : List Value} :
    anyContainsNull items = true ↔ ∃ v ∈ items, v.containsNull = true := by
  induction items with
  | nil => simp [anyContainsNull]
  | cons v rest ih => simp [anyContainsNull, ih]

end Value

namespace Compare

open Value

variable {s : Session} {l r : Value}

theorem turned_eq {x y : Outcome Ordering} (h : Mirrored Ordering.swap x y) :
    x = .ok .eq ↔ y = .ok .eq := by
  rcases h with ⟨o, rfl, rfl⟩ | ⟨⟨e, rfl⟩, f, rfl⟩
  · cases o <;> simp
  · simp

theorem elementOrder_eq {f : Value → Value → Outcome Ordering} {a b : List Value}
    (h : elementOrder f a b = .ok .eq) : List.Forall₂ (fun x y => f x y = .ok .eq) a b := by
  induction a generalizing b with
  | nil =>
    cases b with
    | nil => exact .nil
    | cons y b => simp [elementOrder] at h
  | cons x a ih =>
    cases b with
    | nil => simp [elementOrder] at h
    | cons y b =>
      obtain ⟨o, ho, h⟩ := bind_eq_ok.1 h
      cases o with
      | eq => exact .cons ho (ih h)
      | lt | gt => simp at h

theorem rank_lt_array {v : Value} (hv : v.IsSingle) : v.kind.rank < Kind.array.rank := by
  obtain ⟨harray, hrow, hresult⟩ := hv
  cases hk : v.kind with
  | array => exact (harray hk).elim
  | row => exact (hrow hk).elim
  | resultSet => exact (hresult hk).elim
  | integer k | float k | string k | lob k => cases k <;> decide
  | interval q => cases q <;> decide
  | _ => decide

theorem toArray_single (hr : r.IsSingle) (hnull : r.isNull = false) :
    Ensures (Convert.toArray r) fun w => ∃ y, w = .array [y] ∧ y.IsSingle ∧ y.isNull = false := by
  unfold Convert.toArray
  split
  · exact (hr.2.1 rfl).elim
  · simp [ensures_of_forall, IsSingle, isNull]
  · exact (hr.2.2 rfl).elim
  · simpa using ⟨hr, hnull⟩

theorem coerced_to_element {items : List Value} (hl : l = .array items ∨ l = .row items)
    (hr : r.IsSingle) (hnull : r.isNull = false) (h : withCoercion s l r = .ok .eq) :
    ∃ x y, items = [x] ∧ y.IsSingle ∧ y.isNull = false ∧ total s x y = .ok .eq := by
  have harray := rank_lt_array hr
  have hrow : r.kind.rank < Kind.row.rank := Nat.lt_trans harray (by decide)
  -- whatever the collection is, its elements are left beside a list of one
  obtain ⟨y, hy, hynull, helements⟩ : ∃ y : Value, y.IsSingle ∧ y.isNull = false ∧
      elementOrder (total s) items [y] = .ok .eq := by
    rcases hl with rfl | rfl
    · rw [withCoercion_of_lt_rank (v := .array items) harray (by simp [kind])] at h
      obtain ⟨r', hr', hsame⟩ := bind_eq_ok.1 h
      have hrule := (convert_eq_byRule hnull (Kind.ne_of_rank_lt harray) _).symm.trans hr'
      obtain ⟨y, rfl, hy, hynull⟩ := toArray_single hr hnull r' hrule
      exact ⟨y, hy, hynull, hsame⟩
    · rw [withCoercion_of_lt_rank (v := .row items) hrow (by simp [kind])] at h
      obtain ⟨r', hr', hsame⟩ := bind_eq_ok.1 h
      have hrule := (convert_eq_byRule hnull (Kind.ne_of_rank_lt hrow) _).symm.trans hr'
      cases (Convert.toRow_of_ne hr.2.2).symm.trans hrule
      refine ⟨r, hr, hnull, ?_⟩
      simp only [typeSafe, sameKind] at hsame
      split at hsame
      · exact hsame
      · simp [widthMismatch] at hsame
  cases elementOrder_eq helements with
  | cons hxy hrest =>
    cases hrest
    exact ⟨_, y, rfl, hy, hynull, hxy⟩

theorem total_null (hnull : r.isNull = false) : total s .null r = .ok .lt := by
  rw [total_eq, totalStep, hnull]
  rfl

theorem total_single_ne_eq (hl : l.containsNull = true) (hr : r.IsSingle)
    (hnull : r.isNull = false) : total s l r ≠ .ok .eq := by
  -- on the parts of the collection, at the bottom of which NULL meets the value
  induction l using induction_on_parts generalizing r with
  | step l ih =>
    intro h
    have step {items : List Value} (hitems : l = .array items ∨ l = .row items)
        (hparts : l.parts = items) (hcontains : anyContainsNull items = true) : False := by
      have hlnull : l.isNull = false := by
        rcases hitems with rfl | rfl <;> rfl
      have hsame : isSameResult l r = false := by
        rcases hitems with rfl | rfl <;> rfl
      rw [total_of_not_null hlnull hnull hsame] at h
      obtain ⟨x, y, rfl, hy, hynull, hxy⟩ := coerced_to_element hitems hr hnull h
      obtain ⟨v, hv, hvnull⟩ := anyContainsNull_iff.1 hcontains
      obtain rfl : v = x := by simpa using hv
      exact ih v (by simp [hparts]) hvnull hy hynull hxy
    cases l with
    | null => simp [total_null hnull] at h
    | array items => exact step (.inl rfl) rfl hl
    | row items => exact step (.inr rfl) rfl hl
    | _ => simp [containsNull] at hl

theorem elementsWithNull_eq {forEquality : Bool} {a b : List Value}
    (h : elementsWithNull s forEquality false a b = .ok (some .eq)) :
    List.Forall₂ (fun x y => withNull s forEquality x y = .ok (some .eq)) a b := by
  induction a generalizing b with
  | nil =>
    cases b with
    | nil => exact .nil
    | cons y b => simp [elementsWithNull] at h
  | cons x a ih =>
    cases b with
    | nil => simp [elementsWithNull] at h
    | cons y b =>
      simp only [elementsWithNull] at h
      obtain ⟨found, hfound, h⟩ := bind_eq_ok.1 h
      rcases found with _ | (_ | _ | _)
      · cases forEquality with
        | true => exact (elementsWithNull_open_ne_eq s true a b h).elim
        | false => simp at h
      · simp at h
      · exact .cons hfound (ih h)
      · simp at h

theorem pair_containsNull {P : Value → Value → Prop} {a b : List Value} (h : List.Forall₂ P a b)
    (hnull : anyContainsNull a = true ∨ anyContainsNull b = true) :
    ∃ v w, (v, w) ∈ a.zip b ∧ P v w ∧ (v.containsNull = true ∨ w.containsNull = true) := by
  induction h with
  | nil => simp [anyContainsNull] at hnull
  | @cons v w a b hvw _ ih =>
    by_cases hfirst : v.containsNull = true ∨ w.containsNull = true
    · exact ⟨v, w, by simp, hvw, hfirst⟩
    · have hrest : anyContainsNull a = true ∨ anyContainsNull b = true := by
        simp only [anyContainsNull, Bool.or_eq_true] at hnull
        tauto
      obtain ⟨x, y, hmem, hxy, hxynull⟩ := ih hrest
      exact ⟨x, y, by simp [hmem], hxy, hxynull⟩

theorem mixed_of_whole (hl : l.containsNull = true) (hlnull : l.isNull = false)
    (hrnull : r.isNull = false) (harray : ∀ a b, l = .array a → r ≠ .array b)
    (hrow : ∀ a b, l = .row a → r ≠ .row b) (h : withCoercion s l r = .ok .eq) : Mixed l r := by
  by_cases hr : r.IsSingle
  · have hsame : isSameResult l r = false := by
      cases r with
      | resultSet mark columns rows => exact (hr.2.2 rfl).elim
      | _ => cases l <;> rfl
    rw [← total_of_not_null hlnull hrnull hsame] at h
    exact (total_single_ne_eq hl hr hrnull h).elim
  · have hcollection : (∃ items, r = .array items) ∨ (∃ items, r = .row items) ∨
        ∃ mark columns rows, r = .resultSet mark columns rows := by
      cases r <;> simp_all [IsSingle]
    cases l with
    | null => simp [isNull] at hlnull
    | array items =>
      rcases hcollection with ⟨b, rfl⟩ | ⟨b, rfl⟩ | ⟨mark, columns, rows, rfl⟩
      · exact (harray items b rfl rfl).elim
      · trivial
      · trivial
    | row items =>
      rcases hcollection with ⟨b, rfl⟩ | ⟨b, rfl⟩ | ⟨mark, columns, rows, rfl⟩
      · trivial
      · exact (hrow items b rfl rfl).elim
      · trivial
    | _ => simp [containsNull] at hl

theorem mixed_comm : Mixed l r ↔ Mixed r l := by
  cases l <;> cases r <;> exact Iff.rfl

/-- If values are found equal of which one holds a NULL, then inside them mixed operands are, of
which one holds a NULL. -/
theorem equal_where_mixed {forEquality : Bool}
    (hnull : l.containsNull = true ∨ r.containsNull = true)
    (h : withNull s forEquality l r = .ok (some .eq)) :
    ∃ x y, Meets x y l r ∧ Mixed x y ∧ (x.containsNull = true ∨ y.containsNull = true) := by
  induction l using induction_on_parts generalizing r with
  | step l ih =>
    -- of equal collections some elements at one place are equal of which one holds a NULL
    have inside {a b : List Value} (ha : l.parts = a)
        (helements : elementsWithNull s forEquality false a b = .ok (some .eq))
        (hab : anyContainsNull a = true ∨ anyContainsNull b = true) :
        ∃ v w x y, (v, w) ∈ a.zip b ∧ Meets x y v w ∧ Mixed x y ∧
          (x.containsNull = true ∨ y.containsNull = true) := by
      obtain ⟨v, w, hmem, heq, hvw⟩ := pair_containsNull (elementsWithNull_eq helements) hab
      have hv : v ∈ l.parts := ha ▸ (List.of_mem_zip hmem).1
      obtain ⟨x, y, hxy, hmixed, hxynull⟩ := ih v hv hvw heq
      exact ⟨v, w, x, y, hmem, hxy, hmixed, hxynull⟩
    by_cases harray : ∃ a b, l = .array a ∧ r = .array b
    · obtain ⟨a, b, rfl, rfl⟩ := harray
      obtain ⟨v, w, x, y, hmem, hxy, hmixed⟩ := inside rfl h hnull
      exact ⟨x, y, .array hmem hxy, hmixed⟩
    by_cases hrow : ∃ a b, l = .row a ∧ r = .row b
    · obtain ⟨a, b, rfl, rfl⟩ := hrow
      simp only [withNull] at h
      split at h
      · obtain ⟨v, w, x, y, hmem, hxy, hmixed⟩ := inside rfl h hnull
        exact ⟨x, y, .row hmem hxy, hmixed⟩
      · simp [widthMismatch] at h
    -- all other operands are compared as a whole, which finds only mixed ones equal
    rw [withNull_eq s forEquality (fun a b hl hr => harray ⟨a, b, hl, hr⟩)
      (fun a b hl hr => hrow ⟨a, b, hl, hr⟩)] at h
    split at h
    · simp at h
    next hneither =>
      simp only [Bool.or_eq_true, not_or, Bool.not_eq_true] at hneither
      obtain ⟨o, hwhole, ho⟩ := bind_eq_ok.1 h
      obtain rfl : o = .eq := by simpa using ho
      refine ⟨l, r, .self, ?_, hnull⟩
      rcases hnull with hl | hr
      · exact mixed_of_whole hl hneither.1 hneither.2 (fun a b hl hr => harray ⟨a, b, hl, hr⟩)
          (fun a b hl hr => hrow ⟨a, b, hl, hr⟩) hwhole
      · have hturned := (turned_eq (withCoercion_mirrored s l r)).1 hwhole
        exact mixed_comm.2 (mixed_of_whole hr hneither.2 hneither.1
          (fun a b hr hl => harray ⟨b, a, hl, hr⟩) (fun a b hr hl => hrow ⟨b, a, hl, hr⟩) hturned)

/-- What an array and a row have to be to be found equal: the row has one field, which the total
order finds equal to the array. -/
theorem withNull_array_row (s : Session) (forEquality : Bool) (a b : List Value) :
    withNull s forEquality (.array a) (.row b) = .ok (some .eq) ↔
      ∃ item, b = [item] ∧ total s (.array a) item = .ok .eq := by
  have hrow : withCoercion s (.row b) (.array a) =
      if b.length = 1 then elementOrder (total s) b [.array a] else widthMismatch := by
    have hrank : Kind.array.rank < Kind.row.rank := by decide
    exact withCoercion_of_lt_rank (v := .row b) (w := .array a) hrank (by simp [kind])
  have hwhole : withNull s forEquality (.array a) (.row b) = .ok (some .eq) ↔
      withCoercion s (.array a) (.row b) = .ok .eq := by
    rw [withNull_eq s forEquality (by simp) (by simp)]
    simp [isNull, bind_eq_ok]
  rw [hwhole, turned_eq (withCoercion_mirrored s (.array a) (.row b)), hrow]
  constructor
  · intro h
    split at h
    · cases elementOrder_eq h with
      | cons hitem hrest =>
        cases hrest
        exact ⟨_, rfl, (turned_eq (total_mirrored s _ _)).1 hitem⟩
    · simp [widthMismatch] at h
  · rintro ⟨item, rfl, hitem⟩
    rw [turned_eq (total_mirrored s _ _)] at hitem
    simp [elementOrder, hitem]

/-- Values of which one holds a NULL, at any depth, are never found equal, for order or for
equality, unless an array meets a row in them, or one of these a result, and holds a NULL. -/
theorem null_never_equal (s : Session) (forEquality : Bool) {l r : Value}
    (hnull : l.containsNull = true ∨ r.containsNull = true)
    (hmixed : ∀ x y, Meets x y l r → Mixed x y →
      x.containsNull = false ∧ y.containsNull = false) :
    withNull s forEquality l r ≠ .ok (some .eq) := by
  intro h
  obtain ⟨x, y, hxy, hkinds, hxynull⟩ := equal_where_mixed hnull h
  obtain ⟨hx, hy⟩ := hmixed x y hxy hkinds
  simp [hx, hy] at hxynull

theorem null_never_equal_of_rows : ∃ l r : Value, l.containsNull = true ∧
    ∀ forEquality, withNull (.system 0 0) forEquality l r ≠ .ok (some .eq) := by
  have hmixed : ∀ x y,
      Meets x y (.row [.array [.null, .integer .integer (.int 1)], .boolean true])
        (.row [.array [.boolean false, .string .varchar "1"], .boolean true]) → Mixed x y →
      x.containsNull = false ∧ y.containsNull = false := by
    intro x y h hxy
    -- the rows, the arrays in them, and what the arrays and the rows hold
    cases h with
    | self => exact hxy.elim
    | row hmem h =>
      simp only [List.zip_cons_cons, List.zip_nil_left, List.mem_cons, Prod.mk.injEq,
        List.not_mem_nil, or_false] at hmem
      rcases hmem with ⟨rfl, rfl⟩ | ⟨rfl, rfl⟩
      · cases h with
        | self => exact hxy.elim
        | array hmem h =>
          simp only [List.zip_cons_cons, List.zip_nil_left, List.mem_cons, Prod.mk.injEq,
            List.not_mem_nil, or_false] at hmem
          rcases hmem with ⟨rfl, rfl⟩ | ⟨rfl, rfl⟩ <;> cases h <;> exact hxy.elim
      · cases h
        exact hxy.elim
  exact ⟨_, _, rfl, fun forEquality =>
    null_never_equal (.system 0 0) forEquality (.inl rfl) hmixed⟩

/-- An array of a NULL is found equal to the row of that array. -/
theorem null_equal_in_row : ∃ l r : Value, l.containsNull = true ∧ r.containsNull = true ∧
    ∀ s forEquality, withNull s forEquality l r = .ok (some .eq) := by
  refine ⟨.array [.null], .row [.array [.null]], rfl, rfl, fun s forEquality => ?_⟩
  have hnull : total s .null .null = .ok .eq := by
    rw [total_eq]
    rfl
  have harray : total s (.array [.null]) (.array [.null]) = .ok .eq := by
    rw [total_array]
    simp [elementOrder, hnull]
  exact (withNull_array_row s forEquality _ _).2 ⟨_, rfl, harray⟩

end Compare

end Datum
