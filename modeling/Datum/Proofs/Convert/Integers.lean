import Datum.Proofs.Convert.Kind
import Datum.Proofs.Number.Nearest
import Datum.Proofs.WellFormed

/-!
# Conversion to integers

A truth value, an integer, a decimal, an enumerator or an interval has an integer: its own, or the
nearest one. The conversion to a kind gives that integer if the kind holds it and fails if not, so
that no number wraps, and a detour through a wider kind changes nothing. A decimal must lie within
64 bits before it is rounded.
-/

set_option autoImplicit false

namespace Datum

open Number (nearest)

namespace IntegerKind

variable {j k : IntegerKind} {n : Int}

theorem holds_iff : k.holds n = true ↔ -k.bound ≤ n ∧ n < k.bound := by
  rw [holds, Bool.and_eq_true, decide_eq_true_eq, decide_eq_true_eq, least, greatest,
    Int.le_sub_one_iff]

theorem bound_mono (h : j.width ≤ k.width) : j.bound ≤ k.bound := by
  revert h
  cases j <;> cases k <;> decide

theorem holds_mono (h : j.width ≤ k.width) (hn : j.holds n = true) : k.holds n = true := by
  have hbound := bound_mono h
  rw [holds_iff] at hn ⊢
  omega

theorem holds_bit (k : IntegerKind) (b : Bool) : k.holds (if b then 1 else 0) = true := by
  cases k <;> cases b <;> rfl

end IntegerKind

namespace Value

def integral? : Value → Option Int
  | .boolean b => some (if b then 1 else 0)
  | .integer _ n => some n.val
  | .numeric d => some (nearest d.value)
  | .enum e => some e.ordinal
  | .interval q f => some (f.toInt q)
  | _ => none

/-- Whether a decimal lies within 64 bits before it is rounded; of other values nothing is asked. -/
def InBigint : Value → Prop
  | .numeric d => IntegerKind.bigint.least ≤ d.value ∧ d.value ≤ IntegerKind.bigint.greatest
  | _ => True

end Value

namespace Convert

variable {v : Value} {k : IntegerKind} {n : Int} {column : Text}

theorem roundDecimal_eq (d : Decimal) (column : Text) : roundDecimal d column =
    if IntegerKind.bigint.least ≤ d.value ∧ d.value ≤ IntegerKind.bigint.greatest then
      .ok (nearest d.value)
    else fail (.numericOverflow d.text column) := by
  simp only [roundDecimal, Decimal.compare_eq, Decimal.value_ofInt, compare_gt_iff_gt,
    compare_lt_iff_lt, Decimal.unscaled_setScale_zero, Bool.or_eq_true, decide_eq_true_eq]
  split
  next hout => rw [if_neg fun hin => hout.elim (not_lt.2 hin.2) (not_lt.2 hin.1)]
  next hin =>
    rw [not_or, not_lt, not_lt] at hin
    rw [if_pos ⟨hin.2, hin.1⟩]

theorem toInteger_of_holds (hn : integerOf v k column = .ok n) (hk : k.holds n = true) :
    toInteger v k column = .ok (.integer k (.int n)) := by
  simp [toInteger, hn, narrow, hk]

theorem toInteger_of_not_holds (hn : integerOf v k column = .ok n) (hk : ¬ k.holds n = true) :
    toInteger v k column = fail (.numericOverflow (Text.ofInt n) column) := by
  rw [toInteger, hn, ok_bind, narrow, if_neg hk]
  rfl

theorem integerOf_cases (hn : v.integral? = some n) (k : IntegerKind) (column : Text) :
    v.InBigint ∧ integerOf v k column = .ok n ∨
      ¬ v.InBigint ∧ ∃ text, integerOf v k column = fail (.numericOverflow text column) := by
  cases v with
  | boolean | integer | enum | interval =>
    cases hn
    exact .inl ⟨trivial, rfl⟩
  | numeric d =>
    cases hn
    rw [integerOf, roundDecimal_eq]
    split
    next hin => exact .inl ⟨hin, rfl⟩
    next hout => exact .inr ⟨hout, _, rfl⟩
  | _ => cases hn

theorem toInteger_cases (hn : v.integral? = some n) (k : IntegerKind) (column : Text) :
    (k.holds n = true ∧ v.InBigint) ∧ toInteger v k column = .ok (.integer k (.int n)) ∨
      ¬ (k.holds n = true ∧ v.InBigint) ∧
        ∃ text, toInteger v k column = fail (.numericOverflow text column) := by
  rcases integerOf_cases hn k column with ⟨hin, hinteger⟩ | ⟨hout, text, hfail⟩
  · by_cases hk : k.holds n = true
    · exact .inl ⟨⟨hk, hin⟩, toInteger_of_holds hinteger hk⟩
    · exact .inr ⟨fun h => hk h.1, _, toInteger_of_not_holds hinteger hk⟩
  · exact .inr ⟨fun h => hout h.2, text, by rw [toInteger, hfail]; rfl⟩

end Convert

section Kinds

variable {v w : Value} {k : IntegerKind} {n : Int} {c : ConvertContext}

theorem convert_integer_cases (hv : v.WellFormed) (hn : v.integral? = some n) (k : IntegerKind)
    (hc : c.extension = none) :
    (k.holds n = true ∧ v.InBigint) ∧
        (∃ m, convert v (.integer k) c = .ok (.integer k m) ∧ m.val = n) ∨
      ¬ (k.holds n = true ∧ v.InBigint) ∧
        ∃ text, convert v (.integer k) c = fail (.numericOverflow text c.column) := by
  have hnull : v.isNull = false := by
    cases v with
    | null => cases hn
    | _ => rfl
  by_cases hkind : v.kind = .integer k
  · -- a value of the kind stays as it is, within the bounds of the kind
    have hself := convert_self (v := v) hc
    rw [hkind] at hself
    cases v with
    | integer j m =>
      cases hkind
      cases hn
      exact .inl ⟨⟨hv, trivial⟩, m, hself, rfl⟩
    | _ => cases hkind
  · rw [convert_eq_byRule hnull hkind]
    exact (Convert.toInteger_cases hn k c.column).imp_left fun ⟨hholds, h⟩ => ⟨hholds, _, h, rfl⟩

theorem convert_integer_of_holds (hv : v.WellFormed) (hn : v.integral? = some n)
    (hk : k.holds n = true) (hin : v.InBigint) (hc : c.extension = none) :
    ∃ m, convert v (.integer k) c = .ok (.integer k m) ∧ m.val = n := by
  rcases convert_integer_cases hv hn k hc with ⟨-, h⟩ | ⟨hout, -⟩
  · exact h
  · exact absurd ⟨hk, hin⟩ hout

theorem convert_integer_eq_ok (hv : v.WellFormed) (hn : v.integral? = some n)
    (hc : c.extension = none) (h : convert v (.integer k) c = .ok w) :
    k.holds n = true ∧ v.InBigint ∧ ∃ m : Whole, w = .integer k m ∧ m.val = n := by
  rcases convert_integer_cases hv hn k hc with ⟨⟨hk, hin⟩, m, hm, hval⟩ | ⟨-, text, hfail⟩
  · rw [h] at hm
    cases hm
    exact ⟨hk, hin, m, rfl, hval⟩
  · rw [h] at hfail
    cases hfail

/-- A value with an integer converts to exactly the kinds that hold this integer, and then gives it,
a decimal only from within 64 bits; else the number overflows. What converts to a kind gives an
equal value on the way through every kind that is at least as wide. -/
theorem integer_conversion (hv : v.WellFormed) (hn : v.integral? = some n) (k : IntegerKind)
    (hc : c.extension = none) :
    (k.holds n = true ∧ v.InBigint →
      ∃ m, convert v (.integer k) c = .ok (.integer k m) ∧ m.val = n) ∧
    (¬ (k.holds n = true ∧ v.InBigint) →
      ∃ text, convert v (.integer k) c = fail (.numericOverflow text c.column)) ∧
    ∀ (w : Value) (j : IntegerKind), convert v (.integer k) c = .ok w → k.width ≤ j.width →
      ∃ x y, convert v (.integer j) c = .ok x ∧ convert x (.integer k) c = .ok y ∧
        y.equals w = true := by
  refine ⟨fun ⟨hk, hin⟩ => convert_integer_of_holds hv hn hk hin hc, fun hout => ?_, ?_⟩
  · rcases convert_integer_cases hv hn k hc with ⟨hin, -⟩ | ⟨-, hfail⟩
    · exact absurd hin hout
    · exact hfail
  · intro w j hw hwidth
    obtain ⟨hk, hin, m, rfl, hm⟩ := convert_integer_eq_ok hv hn hc hw
    have hj := IntegerKind.holds_mono hwidth hk
    obtain ⟨a, ha, hvala⟩ := convert_integer_of_holds hv hn hj hin hc
    have hwell : (Value.integer j a).WellFormed := by rwa [Value.WellFormed, hvala]
    have hinteger : (Value.integer j a).integral? = some n := congrArg some hvala
    obtain ⟨b, hb, hvalb⟩ := convert_integer_of_holds hwell hinteger hk trivial hc
    refine ⟨_, _, ha, hb, ?_⟩
    rw [Value.equals_integer, hvalb, hm]
    simp

theorem integer_conversion_of_tinyints :
    let c : ConvertContext := .ofSession (.system 0 0)
    (∃ m x y, convert (.numeric ⟨1274, 1⟩) (.integer .tinyint) c = .ok (.integer .tinyint m) ∧
      m.val = 127 ∧ convert (.numeric ⟨1274, 1⟩) (.integer .bigint) c = .ok x ∧
      convert x (.integer .tinyint) c = .ok y ∧ y.equals (.integer .tinyint m) = true) ∧
    ∃ text, convert (.numeric ⟨1275, 1⟩) (.integer .tinyint) c =
      fail (.numericOverflow text []) := by
  intro c
  let v : Value := .numeric ⟨1274, 1⟩
  let w : Value := .numeric ⟨1275, 1⟩
  have hv : v.integral? = some 127 :=
    congrArg some ((Decimal.unscaled_setScale_zero _).symm.trans (by decide))
  have hw : w.integral? = some 128 :=
    congrArg some ((Decimal.unscaled_setScale_zero _).symm.trans (by decide))
  obtain ⟨hin, -, hway⟩ := integer_conversion (v := v) (c := c) trivial hv .tinyint rfl
  obtain ⟨-, hout, -⟩ := integer_conversion (v := w) (c := c) trivial hw .tinyint rfl
  refine ⟨?_, hout fun h => absurd h.1 (by decide)⟩
  have hbigint : v.InBigint := by
    norm_num [v, Value.InBigint, Decimal.value, IntegerKind.least, IntegerKind.greatest,
      IntegerKind.bound]
  obtain ⟨m, hm, hval⟩ := hin ⟨by decide, hbigint⟩
  obtain ⟨x, y, hx, hy, hequal⟩ := hway _ .bigint hm (by decide)
  exact ⟨m, x, y, hm, hval, hx, hy, hequal⟩

end Kinds

end Datum
