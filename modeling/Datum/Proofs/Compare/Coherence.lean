import Datum.Proofs.Compare.Enumerators
import Datum.Proofs.Equality.Relation
import Datum.Proofs.Interval.Length
import Datum.Proofs.WellFormed

/-!
# Equality, hash and order

Equal values are of one kind and one hash, and no order tells them apart. Where the order of a kind
looks at all that equality looks at, values of the same place in it are equal.
-/

set_option autoImplicit false

namespace Datum

open Std (ReflCmp LawfulEqCmp)

/-- Whether values of a kind are equal as soon as their order does not tell them apart. -/
def Kind.orderSeparates : Kind → Bool
  | .numeric | .float _ | .string .varcharIgnoreCase | .lob .clob => false
  | .array | .row | .resultSet | .enum => false
  | _ => true

namespace Compare

open Value

variable {s : Session} {v w : Value}

theorem elementOrder_of_equals {f : Value → Value → Outcome Ordering} {l r : List Value}
    (hl : ∀ v ∈ l, ∀ w ∈ r, v.equals w = true → f v w = .ok .eq) (h : allEqual l r = true) :
    elementOrder f l r = .ok .eq := by
  rw [allEqual_iff] at h
  induction h with
  | nil => rfl
  | cons hvw _ ih =>
    simp only [elementOrder, hl _ (by simp) _ (by simp) hvw, ok_bind]
    exact ih fun v hv w hw => hl v (by simp [hv]) w (by simp [hw])

theorem sameKind_of_equals {elements : List Value → List Value → Outcome Ordering}
    (helements : ∀ a b, v.elements? = some a → w.elements? = some b → allEqual a b = true →
      elements a b = .ok .eq)
    (hv : v.kind ≠ .resultSet) (h : v.equals w = true) : sameKind elements v w = .ok .eq := by
  cases equals_iff.1 h with
  | same hnone =>
    cases v with
    | array | row => cases hnone
    | resultSet => exact absurd rfl hv
    | _ => simp [sameKind, instantOrder, ReflCmp.compare_self]
  | array hab => exact helements _ _ rfl rfl hab
  | row hab =>
    rw [sameKind, if_pos (allEqual_length hab)]
    exact helements _ _ rfl rfl hab
  | resultSet => exact absurd rfl hv
  | _ => simp_all [sameKind, instantOrder, utcNanos, ReflCmp.compare_self]

theorem total_of_equals (s : Session) (hv : v.WellFormed) (hw : w.WellFormed)
    (h : v.equals w = true) : total s v w = .ok .eq := by
  induction v using induction_on_parts generalizing w with
  | step v ih =>
    have hkind := kind_eq_of_equals h
    have helements : ∀ a b, v.elements? = some a → w.elements? = some b → allEqual a b = true →
        elementOrder (total s) a b = .ok .eq := by
      intro a b ha hb hab
      refine elementOrder_of_equals (fun x hx y hy => ?_) hab
      have hpart : x ∈ v.parts := by
        rcases kind_of_elements? ha with rfl | rfl <;> exact hx
      exact ih x hpart (hv.element ha hx) (hw.element hb hy)
    by_cases hdomain : ∀ d e, v = .enum d → w = .enum e → d.domain = e.domain
    · rw [total_eq, totalStep]
      split
      · rfl
      next hsame =>
        have hresult : v.kind ≠ .resultSet := by
          intro hresult
          cases equals_iff.1 h with
          | resultSet => simp [isSameResult] at hsame
          | same => cases v <;> simp [isSameResult] at hresult hsame
          | _ => cases hresult
        by_cases hnull : v.kind = .null
        · have hwnull := hkind.symm.trans hnull
          cases v <;> cases hnull
          cases w <;> cases hwnull
          rfl
        · rw [isNull_of_kind hnull, isNull_of_kind (hkind ▸ hnull)]
          rw [← sameKind_of_equals helements hresult h]
          exact afterCoercion_same s _ hkind hdomain
    · push Not at hdomain
      obtain ⟨d, e, rfl, rfl, -⟩ := hdomain
      rw [equals_enum, Bool.and_eq_true, beq_iff_eq, beq_iff_eq] at h
      exact (total_enum_eq_iff s hv hw).2 (congrArg EnumDomain.key h.2)

theorem instantOrder_eq {l r o p : Int} :
    instantOrder l r o p = .eq ↔ l = r ∧ o = p := by
  rw [instantOrder, Ordering.then_eq_eq, Int.compare_eq_eq, Int.compare_eq_eq, eq_comm (a := o)]

theorem utcNanos_inj {d e m n offset : Int} (hm : IsNanos m) (hn : IsNanos n)
    (h : utcNanos d m offset = utcNanos e n offset) : d = e ∧ m = n := by
  obtain ⟨m, rfl, hm⟩ := hm.natCast
  obtain ⟨n, rfl, hn⟩ := hn.natCast
  -- the quotient and the remainder of the instant by the length of a day
  simp only [utcNanos, nanosPerDay, nanosPerHour, nanosPerMinute, nanosPerSecond] at h
  omega

theorem equals_of_typeSafe (hv : v.WellFormed) (hw : w.WellFormed)
    (hkind : v.kind.orderSeparates = true) (h : typeSafe s v w = .ok .eq) :
    v.equals w = true := by
  -- by the kind that the values share, in the order in which `sameKind` looks at them
  unfold typeSafe sameKind at h
  split at h
  · rfl
  next a b => cases a <;> cases b <;> first | rfl | cases h
  next j m k n =>
    split at h
    next hjk => simpa [hjk] using h
    next => cases h
  next => cases hkind
  next => cases hkind
  next => simpa using h
  next => simpa using h
  next m o n p =>
    obtain ⟨hinstant, hoffset⟩ := instantOrder_eq.1 (Except.ok.inj h)
    rw [hoffset] at hinstant
    simp only [equals_timeTz, Bool.and_eq_true, beq_iff_eq]
    omega
  next => simpa [Ordering.then_eq_eq] using h
  next d m o e n p =>
    obtain ⟨hinstant, hoffset⟩ := instantOrder_eq.1 (Except.ok.inj h)
    rw [hoffset] at hinstant
    obtain ⟨hday, hnanos⟩ := utcNanos_inj hv.2.1 hw.2.1 hinstant
    simp [hday, hnanos, hoffset]
  next a b =>
    obtain rfl : a = b := LawfulEqCmp.eq_of_compare (Except.ok.inj h)
    exact equals_refl _
  next j t k u =>
    split at h
    next hjk =>
      subst hjk
      cases j with
      | varcharIgnoreCase => cases hkind
      | varchar | char =>
        have h : t.compare u = .eq := Except.ok.inj h
        obtain rfl := LawfulEqCmp.eq_of_compare h
        exact equals_refl _
    next => cases h
  next a b =>
    obtain ⟨j, data⟩ := a
    obtain ⟨k, data'⟩ := b
    split at h
    next hjk =>
      obtain rfl : j = k := hjk
      cases j with
      | clob => cases hkind
      | blob =>
        obtain rfl : data = data' := LawfulEqCmp.eq_of_compare (Except.ok.inj h)
        exact equals_refl _
    next => cases h
  next => cases hkind
  next => cases hkind
  next => cases hkind
  next data held data' held' =>
    obtain rfl : data = data' := LawfulEqCmp.eq_of_compare (Except.ok.inj h)
    exact equals_iff.2 (.object data held held')
  next a b =>
    obtain rfl : a = b := LawfulEqCmp.eq_of_compare (Except.ok.inj h)
    exact equals_refl _
  next g g' => exact equals_iff.2 (.geometry (LawfulEqCmp.eq_of_compare (Except.ok.inj h)))
  next => cases hkind
  next a b =>
    obtain rfl : a = b := LawfulEqCmp.eq_of_compare (Except.ok.inj h)
    exact equals_refl _
  next p f q g =>
    split at h
    next hpq =>
      subst hpq
      obtain rfl := IntervalFields.toAbsolute_inj hv hw (by simpa using h)
      exact equals_refl _
    next => cases h
  next => cases h

/-- Equality is an equivalence. Equal values have one kind, one hash and one place in the order,
enumerators of different domains among them; and of the kinds whose order separates values, those
at one place are equal. -/
theorem equality_coherent (s : Session) {a b c : Value} (ha : a.WellFormed) (hb : b.WellFormed)
    (hmarks : MarksAgree a b) :
    a.equals a = true ∧ a.equals b = b.equals a ∧
      (a.equals b = true → b.equals c = true → a.equals c = true) ∧
      (a.equals b = true → a.kind = b.kind ∧ a.hash = b.hash ∧ total s a b = .ok .eq) ∧
      (a.equals b = true → (∀ g, Within (.geometry g) a → g.IsAccepted) →
        ∃ n, a.hash = .ok n ∧ b.hash = .ok n) ∧
      (a.kind.orderSeparates = true → typeSafe s a b = .ok .eq → a.equals b = true) := by
  refine ⟨equals_refl a, equals_comm a b, equals_trans, fun h => ?_, fun h hg => ?_,
    equals_of_typeSafe ha hb⟩
  · exact ⟨kind_eq_of_equals h, hash_eq_of_equals hmarks h, total_of_equals s ha hb h⟩
  · obtain ⟨n, hn⟩ := (isWritable_of_accepted hg).hash_ok
    exact ⟨n, hn, hash_eq_of_equals hmarks h ▸ hn⟩

theorem equality_coherent_of_labels : ∃ a b : Value, a.WellFormed ∧ b.WellFormed ∧
    MarksAgree a b ∧ a ≠ b ∧ a.equals b = true ∧ b.equals a = true ∧
      total (.system 0 0) a b = .ok .eq ∧ ∃ n, a.hash = .ok n ∧ b.hash = .ok n := by
  let left : EnumDomain := ⟨["x", "y"]⟩
  let right : EnumDomain := ⟨["z", "y"]⟩
  let time : Value := .timestampTz (.int 0) 0 (.int 3600)
  let a : Value := .array [.enum ⟨"y", 1, left⟩, time]
  let b : Value := .array [.enum ⟨"y", 1, right⟩, time]
  have htime : time.WellFormed := ⟨rfl, by decide, by decide⟩
  have ha : a.WellFormed := ⟨⟨⟨by decide, by decide, by decide⟩, by decide⟩, htime, trivial⟩
  have hb : b.WellFormed := ⟨⟨⟨by decide, by decide, by decide⟩, by decide⟩, htime, trivial⟩
  have hwithin {x : Value} (hx : Within x a) : x = a ∨ x ∈ a.parts := by
    rcases within_iff.1 hx with rfl | ⟨w, hw, hx⟩
    · exact .inl rfl
    · rcases List.mem_pair.1 hw with rfl | rfl <;> rw [(within_of_no_parts rfl).1 hx]
      · exact .inr (by simp [a, parts])
      · exact .inr (by simp [a, parts])
  have hmarks : MarksAgree a b := by
    intro mark columns rows columns' rows' hx _
    simpa [a, parts, time] using hwithin hx
  have heq : a.equals b = true := by decide
  obtain ⟨-, hsymm, -, horder, hhash, -⟩ := equality_coherent (.system 0 0) (c := b) ha hb hmarks
  obtain ⟨-, -, htotal⟩ := horder heq
  refine ⟨a, b, ha, hb, hmarks, ?_, heq, hsymm ▸ heq, htotal, hhash heq fun g hg => ?_⟩
  · simp [a, b, left, right]
    decide
  · simpa [a, parts, time] using hwithin hg

end Compare

end Datum
