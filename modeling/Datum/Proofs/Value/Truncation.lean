import Datum.Proofs.Text.Blanks
import Datum.Proofs.Value.Make
import Datum.Value.Adjust

/-!
# Values cut to a precision

Bytes, character strings and arrays are cut to a precision by taking what comes first. Texts of fixed
width lose the spaces at the end once more, so that they may become shorter than the precision.
Cutting is a projection, and cutting twice is cutting once to the smaller precision.
-/

set_option autoImplicit false

namespace Datum

def Kind.isCut : Kind → Bool
  | .varbinary | .string _ | .array => true
  | _ => false

namespace Value

/-- The first bytes, units of text or elements; a text of fixed width without the spaces at the
end. -/
def cut (p : Nat) : Value → Value
  | .varbinary data => .varbinary (data.take p)
  | .string k t => .ofText k (t.take p)
  | .array items => .array (items.take p)
  | v => v

variable {v : Value} {p q : Nat}

theorem fitsPrecision_varbinary (data : Bytes) (x : Num) :
    (varbinary data).fitsPrecision x = x.atLeast data.length := rfl

theorem fitsPrecision_string (k : StringKind) (t : Text) (x : Num) :
    (string k t).fitsPrecision x = x.atLeast t.length := rfl

theorem fitsPrecision_array (items : List Value) (x : Num) :
    (array items).fitsPrecision x = x.atLeast items.length := rfl

theorem atLeast_int_iff {p n : Nat} : (Num.int p).atLeast n = true ↔ n ≤ p := by
  simp [Num.atLeast]

theorem ofText_of_wellFormed {k : StringKind} {t : Text} (h : (string k t).WellFormed) :
    ofText k t = .string k t := by
  cases k with
  | char => rw [ofText, Text.dropTrailingSpaces_of_getLast? h]
  | varchar | varcharIgnoreCase => rfl

theorem cut_of_fits (hv : v.WellFormed) (hkind : v.kind.isCut = true)
    (h : v.fitsPrecision (.int p) = true) : v.cut p = v := by
  cases v with
  | varbinary data => rw [cut, List.take_of_length_le (atLeast_int_iff.1 h)]
  | array items => rw [cut, List.take_of_length_le (atLeast_int_iff.1 h)]
  | string k t => rw [cut, List.take_of_length_le (atLeast_int_iff.1 h), ofText_of_wellFormed hv]
  | _ => cases hkind

theorem take_keptLength {α : Type} (l : List α) (p : Nat) :
    l.take (keptLength l.length (.int p)) = l.take p := by
  have hkept : keptLength l.length (.int p) = min p l.length := by simp [keptLength]
  rw [hkept, List.take_eq_take_iff, Nat.min_assoc, Nat.min_self]

theorem toPrecision_eq_cut (hv : v.WellFormed) (hkind : v.kind.isCut = true) (p : Nat) :
    v.toPrecision (.int p) = .ok (v.cut p) := by
  by_cases hfits : v.fitsPrecision (.int p) = true
  · rw [cut_of_fits hv hkind hfits]
    cases v with
    | varbinary data => exact if_pos (fitsPrecision_varbinary data _ ▸ hfits)
    | array items => exact if_pos (fitsPrecision_array items _ ▸ hfits)
    | string k t => exact if_pos (fitsPrecision_string k t _ ▸ hfits)
    | _ => cases hkind
  · cases v with
    | varbinary data =>
      rw [cut, ← take_keptLength]
      exact if_neg (fitsPrecision_varbinary data _ ▸ hfits)
    | array items =>
      rw [cut, ← take_keptLength]
      exact if_neg (fitsPrecision_array items _ ▸ hfits)
    | string k t =>
      rw [cut, ← take_keptLength]
      exact if_neg (fitsPrecision_string k t _ ▸ hfits)
    | _ => cases hkind

@[simp] theorem kind_cut : (v.cut p).kind = v.kind := by
  cases v with
  | string k t => cases k <;> rfl
  | _ => rfl

theorem wellFormed_cut (hv : v.WellFormed) : (v.cut p).WellFormed := by
  cases v with
  | string k t => exact ofText_wellFormed k _
  | array items =>
    refine allWellFormed_iff.2 fun w hw => ?_
    exact allWellFormed_iff.1 hv w (List.mem_of_mem_take hw)
  | _ => exact hv

theorem cut_fits (hkind : v.kind.isCut = true) (p : Nat) :
    (v.cut p).fitsPrecision (.int p) = true := by
  cases v with
  | varbinary data => exact atLeast_int_iff.2 (List.length_take_le p data)
  | array items => exact atLeast_int_iff.2 (List.length_take_le p items)
  | string k t =>
    have htake : (t.take p).length ≤ p := List.length_take_le p t
    cases k with
    | char => exact atLeast_int_iff.2 ((Text.length_dropTrailingSpaces_le _).trans htake)
    | varchar | varcharIgnoreCase => exact atLeast_int_iff.2 htake
  | _ => cases hkind

theorem cut_cut : (v.cut p).cut q = v.cut (min p q) := by
  cases v with
  | varbinary data => simp [cut, List.take_take, Nat.min_comm]
  | array items => simp [cut, List.take_take, Nat.min_comm]
  | string k t =>
    cases k with
    | char => simp [cut, ofText, Text.dropTrailingSpaces_take, List.take_take, Nat.min_comm]
    | varchar | varcharIgnoreCase => simp [cut, ofText, List.take_take, Nat.min_comm]
  | _ => rfl

/-- Cutting to a precision gives the first part of a value, of the same kind, which fits. It leaves
what fits as it is, and no other value, and two cuts are one to the smaller precision. -/
theorem toPrecision_projection (hv : v.WellFormed) (hkind : v.kind.isCut = true) (p q : Nat) :
    ∃ w, v.toPrecision (.int p) = .ok w ∧ w = v.cut p ∧ w.kind = v.kind ∧
      w.fitsPrecision (.int p) = true ∧ (w = v ↔ v.fitsPrecision (.int p) = true) ∧
      w.toPrecision (.int q) = v.toPrecision (.int (min p q : Nat)) := by
  have hfits := cut_fits hkind p
  refine ⟨v.cut p, toPrecision_eq_cut hv hkind p, rfl, kind_cut, hfits,
    ⟨fun heq => heq ▸ hfits, cut_of_fits hv hkind⟩, ?_⟩
  have hkind' : (v.cut p).kind.isCut = true := by rwa [kind_cut]
  rw [toPrecision_eq_cut (wellFormed_cut hv) hkind', toPrecision_eq_cut hv hkind, cut_cut]

theorem toPrecision_projection_of_spaces :
    (string .char ("ab  c" : Text)).WellFormed ∧
      ∃ w, toPrecision (.string .char ("ab  c" : Text)) (.int 4) = .ok w ∧
        w = .string .char ("ab" : Text) ∧
        w.toPrecision (.int 1) = toPrecision (.string .char ("ab  c" : Text)) (.int 1) := by
  have hv : (string .char ("ab  c" : Text)).WellFormed := by
    intro hspace
    revert hspace
    decide
  obtain ⟨w, hw, hcut, -, -, -, htwice⟩ := toPrecision_projection hv rfl 4 1
  exact ⟨hv, w, hw, hcut, htwice⟩

end Value

end Datum
