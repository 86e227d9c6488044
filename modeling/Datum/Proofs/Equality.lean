import Datum.Proofs.Parts
import Datum.Proofs.Value

/-!
# Equality of values

Equality is reflexive, but it passes over part of what a value holds: the domain of an enumerator,
the live form of an object, all but the bytes of a geometry, and the sign of a zero. Where nothing
is passed over, equal values are the same. Of results it looks at the marks only, which is enough
where they tell results apart.
-/

set_option autoImplicit false

namespace Datum

theorem Whole.val_inj {m n : Whole} (hm : m ≠ .minusZero) (hn : n ≠ .minusZero)
    (h : m.val = n.val) : m = n := by
  cases m <;> cases n <;> simp_all [val]

namespace Value

theorem allEqual_refl {items : List Value} (h : ∀ v ∈ items, v.equals v = true) :
    allEqual items items = true := by
  induction items with
  | nil => rfl
  | cons v rest ih =>
    have hrest := ih fun w hw => h w (by simp [hw])
    simp [allEqual, h v (by simp), hrest]

theorem equals_refl (v : Value) : v.equals v = true := by
  induction v using induction_on_parts with
  | step v ih =>
    cases v with
    | array items | row items => exact allEqual_refl ih
    | _ => simp [equals]

/-- Equality looks at all that a value holds beside its parts, enumerators being of one domain. -/
def IsSeen (d : EnumDomain) : Value → Prop
  | .integer _ n => n ≠ .minusZero
  | .date day => day ≠ .minusZero
  | .timeTz _ offset => offset ≠ .minusZero
  | .timestamp day _ => day ≠ .minusZero
  | .timestampTz day _ offset => day ≠ .minusZero ∧ offset ≠ .minusZero
  | .object _ held => held = .nothing
  | .geometry _ => False
  | .enum e => e.domain = d
  | _ => True

def SeenIn (d : EnumDomain) (v : Value) : Prop := ∀ w, Within w v → w.IsSeen d

theorem SeenIn.part {d : EnumDomain} {v w : Value} (h : v.SeenIn d) (hw : w ∈ v.parts) :
    w.SeenIn d :=
  fun x hx => h x (.part hw hx)

theorem eq_of_allEqual {l r : List Value} (h : allEqual l r = true)
    (hsame : ∀ v ∈ l, ∀ w ∈ r, v.equals w = true → v = w) : l = r := by
  induction l generalizing r with
  | nil =>
    cases r with
    | nil => rfl
    | cons w r => simp [allEqual] at h
  | cons v l ih =>
    cases r with
    | nil => simp [allEqual] at h
    | cons w r =>
      simp only [allEqual, Bool.and_eq_true] at h
      rw [hsame v (by simp) w (by simp) h.1,
        ih h.2 fun v hv w hw => hsame v (by simp [hv]) w (by simp [hw])]

theorem eq_of_equals {d : EnumDomain} {v w : Value} (hmarks : MarksAgree v w) (hv : v.SeenIn d)
    (hw : w.SeenIn d) (h : v.equals w = true) : v = w := by
  induction v using induction_on_parts generalizing w with
  | step v ih =>
    have hseen := hv v .self
    have hseen' := hw w .self
    have hparts : ∀ a ∈ v.parts, ∀ b ∈ w.parts, a.equals b = true → a = b :=
      fun a ha b hb => ih a ha (hmarks.part ha hb) (hv.part ha) (hw.part hb)
    unfold equals at h
    split at h
    · rfl
    next => simpa using h
    next =>
      simp only [Bool.and_eq_true, beq_iff_eq] at h
      rw [h.1, Whole.val_inj hseen hseen' h.2]
    next => simpa using h
    next => simpa using h
    next =>
      rw [Whole.val_inj hseen hseen' (by simpa using h)]
    next => simpa using h
    next =>
      simp only [Bool.and_eq_true, beq_iff_eq] at h
      rw [h.1, Whole.val_inj hseen hseen' h.2]
    next =>
      simp only [Bool.and_eq_true, beq_iff_eq] at h
      rw [h.2, Whole.val_inj hseen hseen' h.1]
    next =>
      simp only [Bool.and_eq_true, beq_iff_eq] at h
      rw [h.1.2, Whole.val_inj hseen.1 hseen'.1 h.1.1, Whole.val_inj hseen.2 hseen'.2 h.2]
    next => simpa using h
    next => simpa using h
    next => simpa using h
    next => rw [eq_of_allEqual h hparts]
    next => rw [eq_of_allEqual h hparts]
    next m columns rows n columns' rows' =>
      obtain rfl : m = n := by simpa using h
      obtain ⟨rfl, rfl⟩ := hmarks m columns rows columns' rows' .self .self
      rfl
    next data held data' held' =>
      obtain rfl : data = data' := by simpa using h
      rw [show held = .nothing from hseen, show held' = .nothing from hseen']
    next => simpa using h
    next => exact hseen.elim
    next e f =>
      simp only [Bool.and_eq_true, beq_iff_eq] at h
      have hdomain : e.domain = f.domain := Eq.trans hseen hseen'.symm
      cases e
      cases f
      simp_all
    next => simpa using h
    next => simpa using h
    next => simp at h

end Value

end Datum
