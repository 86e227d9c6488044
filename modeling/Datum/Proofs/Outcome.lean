import Datum.Failure

/-!
# Outcomes

What follows from the result of a computation that may fail: `bind_eq_ok` takes a sequence of steps
apart, `Ensures` says that every result has a property, and `Contained` that every failure is an
error of the library.
-/

set_option autoImplicit false

namespace Datum

variable {α β : Type}

@[simp] theorem ok_bind (a : α) (f : α → Outcome β) : (Except.ok a : Outcome α) >>= f = f a := rfl

@[simp] theorem error_bind (e : Fault) (f : α → Outcome β) :
    (Except.error e : Outcome α) >>= f = .error e := rfl

@[simp] theorem pure_eq_ok (a : α) : (pure a : Outcome α) = .ok a := rfl

theorem bind_eq_ok {x : Outcome α} {f : α → Outcome β} {b : β} :
    x >>= f = .ok b ↔ ∃ a, x = .ok a ∧ f a = .ok b := by
  cases x with
  | error e => simp
  | ok a => simp

theorem bind_eq_error {x : Outcome α} {f : α → Outcome β} {e : Fault} :
    x >>= f = .error e ↔ x = .error e ∨ ∃ a, x = .ok a ∧ f a = .error e := by
  cases x with
  | error e' => simp
  | ok a => simp

theorem toOption_eq_some {x : Outcome α} {a : α} : x.toOption = some a ↔ x = .ok a := by
  cases x with
  | error e => simp [Except.toOption]
  | ok b => simp [Except.toOption]

@[simp] theorem fail_ne_ok (e : ValueError) (a : α) : (fail e : Outcome α) ≠ .ok a := by
  simp [fail]

def Ensures (x : Outcome α) (P : α → Prop) : Prop := ∀ a, x = .ok a → P a

@[simp] theorem ensures_ok (a : α) (P : α → Prop) : Ensures (.ok a) P ↔ P a := by
  simp [Ensures]

@[simp] theorem ensures_error (e : Fault) (P : α → Prop) : Ensures (.error e) P ↔ True := by
  simp [Ensures]

@[simp] theorem ensures_fail (e : ValueError) (P : α → Prop) : Ensures (fail e) P ↔ True := by
  simp [Ensures]

@[simp] theorem ensures_bind (x : Outcome α) (f : α → Outcome β) (P : β → Prop) :
    Ensures (x >>= f) P ↔ Ensures x fun a => Ensures (f a) P := by
  cases x with
  | error e => simp
  | ok a => simp

theorem ensures_of_forall {x : Outcome α} {P : α → Prop} (h : ∀ a, P a) : Ensures x P :=
  fun a _ => h a

theorem Ensures.mono {x : Outcome α} {P Q : α → Prop} (hx : Ensures x P) (h : ∀ a, P a → Q a) :
    Ensures x Q :=
  fun a ha => h a (hx a ha)

/-- Nothing is raised: a failure is an error that is returned. -/
def Contained (x : Outcome α) : Prop := ∀ f, x = .error f → ∃ e, f = .value e

@[simp] theorem contained_ok (a : α) : Contained (.ok a : Outcome α) := by
  simp [Contained]

@[simp] theorem contained_fail (e : ValueError) : Contained (fail e : Outcome α) := by
  simp [Contained, fail]

@[simp] theorem contained_bind (x : Outcome α) (f : α → Outcome β) :
    Contained (x >>= f) ↔ Contained x ∧ ∀ a, x = .ok a → Contained (f a) := by
  cases x with
  | error e => simp [Contained]
  | ok a => simp

theorem contained_of_eq_ok {x : Outcome α} (h : ∃ a, x = .ok a) : Contained x := by
  obtain ⟨a, rfl⟩ := h
  exact contained_ok a

end Datum
