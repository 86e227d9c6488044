import Datum.Geometry.TextCodec
import Datum.Proofs.Compare.Antisymmetry
import Datum.Proofs.Parts

/-!
# Three-valued comparison refines the total order

Where three-valued comparison decides, it decides as the total order does, and without NULL it
always decides. What is open for equality is open for order too: equality only looks further.
-/

set_option autoImplicit false

namespace Datum

namespace Value

theorem containsNull_of_mem {items : List Value} (h : anyContainsNull items = false) {v : Value}
    (hv : v ∈ items) : v.containsNull = false := by
  induction items with
  | nil => simp at hv
  | cons w rest ih =>
    simp only [anyContainsNull, Bool.or_eq_false_iff] at h
    rcases List.mem_cons.1 hv with rfl | hv
    · exact h.1
    · exact ih h.2 hv

theorem isNull_of_containsNull {v : Value} (h : v.containsNull = false) : v.isNull = false := by
  cases v with
  | null => simp [containsNull] at h
  | _ => rfl

end Value

namespace Compare

open Value

variable {s : Session} {l r : Value}

theorem total_of_not_null (hl : l.isNull = false) (hr : r.isNull = false)
    (hsame : isSameResult l r = false) : total s l r = withCoercion s l r := by
  rw [total_eq]
  simp [totalStep, hl, hr, hsame, withCoercion]

theorem total_array (s : Session) (a b : List Value) :
    total s (.array a) (.array b) = elementOrder (total s) a b := by
  rw [total_of_not_null rfl rfl rfl]
  rfl

theorem total_row (s : Session) (a b : List Value) :
    total s (.row a) (.row b) =
      if a.length = b.length then elementOrder (total s) a b else widthMismatch := by
  rw [total_of_not_null rfl rfl rfl]
  rfl

theorem withCoercion_result (s : Session) (mark : Nat) (columns : List Column)
    (rows : List (List Value)) :
    withCoercion s (.resultSet mark columns rows) (.resultSet mark columns rows) = do
      let _ ← (resultSet mark columns rows).text
      return .eq := by
  have hsame : withCoercion s (.resultSet mark columns rows) (.resultSet mark columns rows) = do
      return (← (resultSet mark columns rows).text).compare
        (← (resultSet mark columns rows).text) := rfl
  rw [hsame]
  cases (resultSet mark columns rows).text with
  | error f => rfl
  | ok t =>
    have heq : t.compare t = .eq := Std.ReflCmp.compare_self
    simp [heq]

/-- The total order of two values that are not NULL is that after coercion, but it does not look
into a result that is compared with itself. -/
theorem total_eq_or_same (s : Session) (hl : l.isNull = false) (hr : r.isNull = false)
    (hmarks : MarksAgree l r) :
    total s l r = withCoercion s l r ∨
      total s l r = .ok .eq ∧ withCoercion s l r = do
        let _ ← l.text
        return .eq := by
  cases hsame : isSameResult l r with
  | false => exact .inl (total_of_not_null hl hr hsame)
  | true =>
    have hsame' := hsame
    unfold isSameResult at hsame'
    split at hsame'
    next m columns rows n columns' rows' =>
      obtain rfl : m = n := by simpa using hsame'
      obtain ⟨rfl, rfl⟩ := hmarks m columns rows columns' rows' .self .self
      exact .inr ⟨by simp [total_eq, totalStep, hsame], withCoercion_result s m columns rows⟩
    · simp at hsame'

/-- How the total order, three-valued comparison for order and that for equality go together. -/
structure Refines (plain : Outcome Ordering) (order equality : Outcome (Option Ordering)) :
    Prop where
  decided : ∀ o, order = .ok (some o) → plain = .ok o ∧ equality = .ok (some o)
  equal : equality = .ok (some .eq) → order = .ok (some .eq)
  unknown : equality = .ok none → order = .ok none

theorem Refines.ofOpen (plain : Outcome Ordering) : Refines plain (.ok none) (.ok none) :=
  ⟨by simp, by simp, by simp⟩

theorem Refines.failed (f : Fault) (plain : Outcome Ordering) :
    Refines plain (.error f) (.error f) :=
  ⟨by simp, by simp, by simp⟩

theorem Refines.found (o : Ordering) : Refines (.ok o) (.ok (some o)) (.ok (some o)) :=
  ⟨by simp, by simp, by simp⟩

theorem Refines.whole {plain compared : Outcome Ordering}
    (h : ∀ o, compared = .ok o → plain = .ok o) :
    Refines plain (do return some (← compared)) (do return some (← compared)) := by
  cases compared with
  | error f => exact .failed f plain
  | ok o =>
    rw [h o rfl]
    exact .found o

theorem elementsWithNull_open_ne_eq (s : Session) (forEquality : Bool) (a b : List Value) :
    elementsWithNull s forEquality true a b ≠ .ok (some .eq) := by
  induction a generalizing b with
  | nil => cases b <;> simp [elementsWithNull]
  | cons x a ih =>
    cases b with
    | nil => simp [elementsWithNull]
    | cons y b =>
      simp only [elementsWithNull]
      cases withNull s forEquality x y with
      | error f => simp
      | ok found =>
        rcases found with _ | (_ | _ | _)
        · cases forEquality with
          | true => exact ih b
          | false => simp
        · simp
        · exact ih b
        · simp

/-- One pair of elements before the rest, where nothing after an open pair makes lists equal. -/
theorem Refines.cons {plain restPlain : Outcome Ordering}
    {order equality restOrder restEquality restOpen : Outcome (Option Ordering)}
    (first : Refines plain order equality) (rest : Refines restPlain restOrder restEquality)
    (hopen : restOpen ≠ .ok (some .eq)) :
    Refines
      (do match ← plain with
        | .eq => restPlain
        | found => return found)
      (do match ← order with
        | none => return none
        | some .eq => restOrder
        | some found => return some found)
      (do match ← equality with
        | none => restOpen
        | some .eq => restEquality
        | some found => return some found) := by
  refine ⟨fun o ho => ?_, fun he => ?_, fun hn => ?_⟩
  · obtain ⟨found, hfound, ho⟩ := bind_eq_ok.1 ho
    cases found with
    | none => simp at ho
    | some found =>
      obtain ⟨hplain, hequality⟩ := first.decided found hfound
      rw [hplain, hequality]
      cases found with
      | eq => exact rest.decided o ho
      | lt | gt => simpa using ho
  · obtain ⟨found, hfound, he⟩ := bind_eq_ok.1 he
    rcases found with _ | (_ | _ | _)
    · exact (hopen he).elim
    · simp at he
    · rw [first.equal hfound]
      exact rest.equal he
    · simp at he
  · obtain ⟨found, hfound, hn⟩ := bind_eq_ok.1 hn
    rcases found with _ | (_ | _ | _)
    · rw [first.unknown hfound]
      rfl
    · simp at hn
    · rw [first.equal hfound]
      exact rest.unknown hn
    · simp at hn

theorem elementsWithNull_refines {a b : List Value}
    (h : ∀ x ∈ a, ∀ y ∈ b, Refines (total s x y) (withNull s false x y) (withNull s true x y)) :
    Refines (elementOrder (total s) a b) (elementsWithNull s false false a b)
      (elementsWithNull s true false a b) := by
  induction a generalizing b with
  | nil =>
    cases b with
    | nil => exact .found .eq
    | cons y b => exact .found .lt
  | cons x a ih =>
    cases b with
    | nil => exact .found .gt
    | cons y b =>
      have hrest := ih (b := b) fun v hv w hw => h v (by simp [hv]) w (by simp [hw])
      have hopen := elementsWithNull_open_ne_eq s true a b
      simp only [elementOrder, elementsWithNull, if_true, Bool.false_eq_true, if_false]
      exact (h x (by simp) y (by simp)).cons hrest hopen

theorem withNull_refines (hmarks : MarksAgree l r) :
    Refines (total s l r) (withNull s false l r) (withNull s true l r) := by
  -- on the depth of the left operand: its elements are less deep
  generalize hn : l.depth = n
  induction n using Nat.strongRecOn generalizing l r with
  | ind n ih =>
    have hmem {a b : List Value} (hl : l.elements? = some a) (ha : a = l.parts)
        (hb : b = r.parts) : ∀ x ∈ a, ∀ y ∈ b,
          Refines (total s x y) (withNull s false x y) (withNull s true x y) := by
      intro x hx y hy
      have hdepth := depth_lt_of_mem hl hx
      exact ih x.depth (by omega) (hmarks.part (ha ▸ hx) (hb ▸ hy)) rfl
    by_cases harray : ∃ a b, l = .array a ∧ r = .array b
    · obtain ⟨a, b, rfl, rfl⟩ := harray
      rw [total_array]
      simp only [withNull]
      exact elementsWithNull_refines (hmem rfl rfl rfl)
    by_cases hrow : ∃ a b, l = .row a ∧ r = .row b
    · obtain ⟨a, b, rfl, rfl⟩ := hrow
      rw [total_row]
      simp only [withNull]
      split
      · exact elementsWithNull_refines (hmem rfl rfl rfl)
      · exact .failed _ _
    have hwhole (forEquality : Bool) := withNull_eq s forEquality
      (fun a b hl hr => harray ⟨a, b, hl, hr⟩) (fun a b hl hr => hrow ⟨a, b, hl, hr⟩)
    rw [hwhole, hwhole]
    split
    · exact .ofOpen _
    next hnull =>
      simp only [Bool.or_eq_true, not_or, Bool.not_eq_true] at hnull
      refine .whole fun o ho => ?_
      rcases total_eq_or_same s hnull.1 hnull.2 hmarks with heq | ⟨heq, hsame⟩
      · rw [heq, ho]
      · obtain ⟨t, -, hfound⟩ := bind_eq_ok.1 (hsame ▸ ho)
        simpa [heq] using hfound

theorem elementsWithNull_eq_elementOrder {forEquality : Bool} {a b : List Value}
    (h : ∀ x ∈ a, ∀ y ∈ b, withNull s forEquality x y = do return some (← total s x y)) :
    elementsWithNull s forEquality false a b = do
      return some (← elementOrder (total s) a b) := by
  induction a generalizing b with
  | nil => cases b <;> simp [elementsWithNull, elementOrder]
  | cons x a ih =>
    cases b with
    | nil => simp [elementsWithNull, elementOrder]
    | cons y b =>
      have hrest := ih (b := b) fun v hv w hw => h v (by simp [hv]) w (by simp [hw])
      simp only [elementsWithNull, elementOrder, h x (by simp) y (by simp)]
      cases total s x y with
      | error f => rfl
      | ok o =>
        cases o with
        | eq => simpa using hrest
        | lt | gt => rfl

theorem withNull_eq_total (hmarks : MarksAgree l r) (hl : l.containsNull = false)
    (hr : r.containsNull = false) (hwrite : l.IsWritable) (forEquality : Bool) :
    withNull s forEquality l r = do return some (← total s l r) := by
  -- No operand that is met on the way is NULL: both recursions take the same turns and fail at the
  -- same place.
  generalize hn : l.depth = n
  induction n using Nat.strongRecOn generalizing l r with
  | ind n ih =>
    have hmem {a b : List Value} (helements : l.elements? = some a) (ha : a = l.parts)
        (hb : b = r.parts) (hnl : anyContainsNull a = false) (hnr : anyContainsNull b = false) :
        ∀ x ∈ a, ∀ y ∈ b, withNull s forEquality x y = do return some (← total s x y) := by
      intro x hx y hy
      have hdepth := depth_lt_of_mem helements hx
      exact ih x.depth (by omega) (hmarks.part (ha ▸ hx) (hb ▸ hy)) (containsNull_of_mem hnl hx)
        (containsNull_of_mem hnr hy) (hwrite.part (ha ▸ hx)) rfl
    by_cases harray : ∃ a b, l = .array a ∧ r = .array b
    · obtain ⟨a, b, rfl, rfl⟩ := harray
      rw [total_array]
      simp only [withNull]
      exact elementsWithNull_eq_elementOrder (hmem rfl rfl rfl hl hr)
    by_cases hrow : ∃ a b, l = .row a ∧ r = .row b
    · obtain ⟨a, b, rfl, rfl⟩ := hrow
      rw [total_row]
      simp only [withNull]
      split
      · exact elementsWithNull_eq_elementOrder (hmem rfl rfl rfl hl hr)
      · rfl
    have hlnull := isNull_of_containsNull hl
    have hrnull := isNull_of_containsNull hr
    rw [withNull_eq s forEquality (fun a b hl hr => harray ⟨a, b, hl, hr⟩)
      (fun a b hl hr => hrow ⟨a, b, hl, hr⟩)]
    simp only [hlnull, hrnull, Bool.or_false, Bool.false_eq_true, if_false]
    rcases total_eq_or_same s hlnull hrnull hmarks with heq | ⟨heq, hsame⟩
    · rw [heq]
    · obtain ⟨t, ht⟩ := hwrite.text_ok
      rw [heq, hsame, ht]
      rfl

/-- Three-valued comparison refines the total order: an order that it finds is the total order and
is found for equality as well; without NULL nothing stays open, and failures are the same; and
what is open for equality is open for order. -/
theorem withNull_refines_total (s : Session) (l r : Value) (hmarks : MarksAgree l r) :
    (∀ o, withNull s false l r = .ok (some o) →
      total s l r = .ok o ∧ withNull s true l r = .ok (some o)) ∧
    (l.containsNull = false → r.containsNull = false →
      (∀ g, Within (.geometry g) l → g.IsAccepted) →
        ∀ forEquality, withNull s forEquality l r ≠ .ok none ∧
          withNull s forEquality l r = do return some (← total s l r)) ∧
    (withNull s true l r = .ok none → withNull s false l r = .ok none) := by
  have href := withNull_refines (s := s) hmarks
  refine ⟨href.decided, fun hl hr hg forEquality => ?_, href.unknown⟩
  have htotal := withNull_eq_total (s := s) hmarks hl hr (isWritable_of_accepted hg) forEquality
  refine ⟨?_, htotal⟩
  rw [htotal]
  cases total s l r <;> simp

theorem withNull_refines_total_of_result :
    ∃ (g : Geometry) (l r : Value), g.IsAccepted ∧ Within (.geometry g) l ∧ MarksAgree l r ∧
      total (.system 0 0) l r = .ok .lt ∧
        ∀ forEquality, withNull (.system 0 0) forEquality l r = .ok (some .lt) := by
  let codec := GeometryCodec.ofText .plain
  let g : Geometry := ⟨Text.Utf8.encode "POINT (1 2)", ⟨.int 0, .int 1, .xy⟩, codec⟩
  let result : Value := .resultSet 1 [] [[.geometry g]]
  let l : Value := .array [result, .integer .integer (.int 1)]
  let r : Value := .array [result, .integer .integer (.int 2)]
  have hg : g.IsAccepted := ⟨by rfl, fun data header _ => ⟨Text.Utf8.decode data, rfl⟩⟩
  have hmarks : MarksAgree l r := by
    intro mark columns rows columns' rows' hx hy
    have hx : mark = 1 ∧ columns = [] ∧ rows = [[.geometry g]] := by simpa [l, result] using hx
    have hy : mark = 1 ∧ columns' = [] ∧ rows' = [[.geometry g]] := by simpa [r, result] using hy
    exact ⟨hx.2.1.trans hy.2.1.symm, hx.2.2.trans hy.2.2.symm⟩
  have hwithin : ∀ h, Within (.geometry h) l → h.IsAccepted := by
    intro h hh
    have heq : h = g := by simpa [l, result] using hh
    exact heq ▸ hg
  have htotal : total (.system 0 0) l r = .ok .lt := by rfl
  refine ⟨g, l, r, hg, by simp [l, result], hmarks, htotal, fun forEquality => ?_⟩
  have h := (withNull_refines_total (.system 0 0) l r hmarks).2.1 rfl rfl hwithin forEquality
  rw [h.2, htotal]
  rfl

end Compare

end Datum
