import Datum.Json.Document
import Datum.Proofs.EnumDomain
import Datum.Proofs.Interval.Literal
import Datum.Proofs.Value

/-!
# Well-formed values

What the checked constructors promise of a value, at every depth.
-/

set_option autoImplicit false

namespace Datum

def IsNanos (n : Int) : Prop := 0 ≤ n ∧ n < nanosPerDay

def IsOffset (o : Int) : Prop := (o.natAbs : Int) ≤ maxOffsetSeconds

instance (n : Int) : Decidable (IsNanos n) := inferInstanceAs (Decidable (_ ∧ _))

instance (o : Int) : Decidable (IsOffset o) := inferInstanceAs (Decidable (_ ≤ _))

theorem IsNanos.natCast {n : Int} (h : IsNanos n) : ∃ m : Nat, n = m ∧ m < 86400000000000 := by
  obtain ⟨m, rfl⟩ := Int.eq_ofNat_of_zero_le h.1
  refine ⟨m, rfl, ?_⟩
  have hlt := h.2
  simp only [nanosPerDay, nanosPerHour, nanosPerMinute, nanosPerSecond] at hlt
  omega

theorem IsOffset.natAbs_le {o : Int} (h : IsOffset o) : o.natAbs ≤ 64800 := by
  simp only [IsOffset, maxOffsetSeconds] at h
  omega

structure Enumerator.IsValid (e : Enumerator) : Prop where
  domain : e.domain.IsValid
  label : e.domain.labels[e.ordinal]? = some e.label

namespace Value

mutual

def WellFormed : Value → Prop
  | .integer k n => k.holds n.val = true
  | .date day => Num.isSafe day.val = true
  | .time nanos => IsNanos nanos
  | .timeTz nanos offset => IsNanos nanos ∧ IsOffset offset.val
  | .timestamp day nanos => Num.isSafe day.val = true ∧ IsNanos nanos
  | .timestampTz day nanos offset =>
    Num.isSafe day.val = true ∧ IsNanos nanos ∧ IsOffset offset.val
  | .string .char t => t.getLast? ≠ some (Text.unit ' ')
  | .array items => AllWellFormed items
  | .row items => AllWellFormed items
  | .resultSet _ _ rows => RowsWellFormed rows
  | .object _ held => HeldWellFormed held
  | .enum e => e.IsValid
  | .json data => Json.isValid (Text.Utf8.decode data) = true
  | .interval q f => f.IsValid q
  | _ => True

def AllWellFormed : List Value → Prop
  | [] => True
  | v :: rest => WellFormed v ∧ AllWellFormed rest

def RowsWellFormed : List (List Value) → Prop
  | [] => True
  | fields :: rest => AllWellFormed fields ∧ RowsWellFormed rest

def HeldWellFormed : Held Value → Prop
  | .value v => WellFormed v
  | _ => True

end

theorem allWellFormed_iff {items : List Value} :
    AllWellFormed items ↔ ∀ v ∈ items, v.WellFormed := by
  induction items with
  | nil => simp [AllWellFormed]
  | cons v rest ih => simp [AllWellFormed, ih]

theorem WellFormed.element {v w : Value} {items : List Value} (hv : v.WellFormed)
    (h : v.elements? = some items) (hw : w ∈ items) : w.WellFormed := by
  cases v with
  | array l | row l =>
    cases h
    exact allWellFormed_iff.1 hv w hw
  | _ => cases h

end Value

end Datum
