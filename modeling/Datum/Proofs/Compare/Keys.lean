import Datum.Compare.SameKind
import Datum.Proofs.Number.DecimalValue

/-!
# Lawful comparisons

The comparisons of payloads are orders: reversing the operands reverses the result, and they are
transitive. Each is a comparison of keys, of lists of keys, or of two keys one after the other.
-/

set_option autoImplicit false

namespace Datum

open Std (TransCmp OrientedCmp LawfulEqCmp)

theorem transCmp_on {α β : Type} (cmp : β → β → Ordering) [TransCmp cmp] (key : α → β) :
    TransCmp fun a b => cmp (key a) (key b) where
  eq_swap := OrientedCmp.eq_swap
  isLE_trans := TransCmp.isLE_trans

namespace Text

theorem compare_eq : compare = List.compareLex (compareOn UInt16.toNat) := by
  funext s t
  induction s generalizing t with
  | nil => cases t <;> rfl
  | cons u s ih =>
    cases t with
    | nil => rfl
    | cons v t =>
      simp only [compare, ih, List.compareLex_cons_cons, compareOn, Nat.compare_eq_ite_lt]
      split
      · rfl
      · split <;> rfl

instance : TransCmp compare := by
  rw [compare_eq]
  infer_instance

def foldedUnit (u : UInt16) : Nat := (lowerUnit (upperUnit u)).toNat

theorem compareIgnoringCase_eq :
    compareIgnoringCase = List.compareLex (compareOn foldedUnit) := by
  funext s t
  induction s generalizing t with
  | nil => cases t <;> rfl
  | cons u s ih =>
    cases t with
    | nil => rfl
    | cons v t =>
      simp only [compareIgnoringCase, ih, List.compareLex_cons_cons, compareOn, foldedUnit]
      split
      next h => simp [h]
      next =>
        split
        next h =>
          have h : lowerUnit (upperUnit u) = lowerUnit (upperUnit v) := by
            rcases Bool.or_eq_true _ _ ▸ h with h | h
            · rw [of_decide_eq_true h]
            · exact of_decide_eq_true h
          simp [h]
        next h =>
          have hne : lowerUnit (upperUnit u) ≠ lowerUnit (upperUnit v) := by simp_all
          have hne : (lowerUnit (upperUnit u)).toNat ≠ (lowerUnit (upperUnit v)).toNat :=
            fun h => hne (UInt16.toNat_inj.1 h)
          rw [Nat.compare_eq_ite_lt]
          split
          · rfl
          · rw [if_pos (by omega)]
            rfl

instance : TransCmp compareIgnoringCase := by
  rw [compareIgnoringCase_eq]
  infer_instance

end Text

namespace Bytes

theorem compare_eq : compare = List.compareLex (compareOn UInt8.toNat) := by
  funext s t
  induction s generalizing t with
  | nil => cases t <;> rfl
  | cons u s ih =>
    cases t with
    | nil => rfl
    | cons v t =>
      simp only [compare, ih, List.compareLex_cons_cons, compareOn, Nat.compare_eq_ite_lt]
      split
      · rfl
      · split <;> rfl

instance : TransCmp compare := by
  rw [compare_eq]
  infer_instance

instance : LawfulEqCmp compare := by
  have : LawfulEqCmp (compareOn UInt8.toNat) :=
    ⟨fun h => by simpa [compareOn, UInt8.toNat_inj] using h⟩
  rw [compare_eq]
  infer_instance

end Bytes

instance : TransCmp Uuid.compare :=
  inferInstanceAs (TransCmp (compareLex (compareOn fun u : Uuid => u.high.toNat)
    (compareOn fun u : Uuid => u.low.toNat)))

instance : LawfulEqCmp Uuid.compare where
  eq_of_compare {u v} h := by
    obtain ⟨high, low⟩ := u
    obtain ⟨high', low'⟩ := v
    simpa [Uuid.compare, Ordering.then_eq_eq, UInt64.toNat_inj] using h

instance : TransCmp Double.compare := inferInstanceAs (TransCmp (compareOn Double.rank))

namespace Compare

instance (k : StringKind) : TransCmp (stringOrder k) := by
  cases k with
  | varchar | char => exact inferInstanceAs (TransCmp Text.compare)
  | varcharIgnoreCase => exact inferInstanceAs (TransCmp Text.compareIgnoringCase)

instance (k : LobKind) : TransCmp (lobOrder k) := by
  cases k with
  | clob => exact transCmp_on Text.compare Lob.text
  | blob => exact transCmp_on Bytes.compare Lob.data

instance : TransCmp fun a b : Int × Int => instantOrder a.1 b.1 a.2 b.2 :=
  have : TransCmp fun a b : Int => Ord.compare b a := .opposite
  have : TransCmp fun a b : Int × Int => Ord.compare b.2 a.2 :=
    transCmp_on (fun a b : Int => Ord.compare b a) Prod.snd
  inferInstanceAs (TransCmp (compareLex (compareOn Prod.fst) fun a b => Ord.compare b.2 a.2))

end Compare

end Datum
