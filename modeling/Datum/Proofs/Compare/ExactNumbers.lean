import Datum.Proofs.Compare.Promotion
import Datum.Proofs.Convert.Integers

/-!
# The order of exact numbers

Booleans, integers of every width and decimals stand for rational numbers. Each is promoted to a
higher of these kinds without loss, so that in any mixture they compare as the numbers do.
-/

set_option autoImplicit false

namespace Datum

namespace IntegerKind

theorem width_mono {j k : IntegerKind} (h : (Kind.integer j).rank ≤ (Kind.integer k).rank) :
    j.width ≤ k.width := by
  revert h
  cases j <;> cases k <;> decide

theorem rank_between (k : IntegerKind) :
    Kind.boolean.rank < (Kind.integer k).rank ∧ (Kind.integer k).rank < Kind.numeric.rank := by
  cases k <;> decide

end IntegerKind

namespace Value

def number? : Value → Option ℚ
  | .boolean b => some (if b then 1 else 0)
  | .integer _ n => some n.val
  | .numeric d => some d.value
  | _ => none

def HasNumber (v : Value) (x : ℚ) : Prop := v.WellFormed ∧ v.number? = some x

end Value

namespace Convert

open Value

variable {x : ℚ} (s : Session)

theorem toInteger_hasNumber {v : Value} {k : IntegerKind} (hv : v.HasNumber x)
    (hlt : v.kind.rank < (Kind.integer k).rank) (column : Text) :
    ∃ w, toInteger v k column = .ok w ∧ w.kind = .integer k ∧ w.HasNumber x := by
  obtain ⟨hwell, hnumber⟩ := hv
  cases v with
  | boolean b =>
    have hholds := k.holds_bit b
    refine ⟨_, toInteger_of_holds rfl hholds, rfl, hholds, ?_⟩
    rw [← hnumber]
    cases b <;> rfl
  | integer j n =>
    have hholds : k.holds n.val = true :=
      IntegerKind.holds_mono (IntegerKind.width_mono hlt.le) hwell
    exact ⟨_, toInteger_of_holds rfl hholds, rfl, hholds, hnumber⟩
  | numeric d => exact absurd hlt (Nat.lt_asymm k.rank_between.2)
  | _ => cases hnumber

theorem toNumeric_hasNumber {v : Value} (hv : v.HasNumber x) :
    ∃ d : Decimal, toNumeric v = .ok (.numeric d) ∧ (numeric d).HasNumber x := by
  obtain ⟨-, hnumber⟩ := hv
  cases v with
  | boolean b =>
    refine ⟨_, rfl, trivial, ?_⟩
    rw [← hnumber]
    cases b <;> simp [number?, Decimal.value, Decimal.ofInt]
  | integer j n =>
    refine ⟨_, rfl, trivial, ?_⟩
    rw [← hnumber]
    simp [number?, Decimal.value, Decimal.ofInt]
  | numeric d => exact ⟨d, rfl, trivial, hnumber⟩
  | _ => cases hnumber

end Convert

namespace Compare

open Value

variable {s : Session} {v w : Value} {x y : ℚ}

theorem compare_intCast (m n : Int) : Ord.compare m n = Ord.compare (m : ℚ) n := by
  rcases lt_trichotomy m n with h | h | h
  · rw [compare_lt_iff_lt.2 (Int.cast_lt.2 h), Int.compare_eq_lt.2 h]
  · rw [Int.compare_eq_eq.2 h, compare_eq_iff_eq.2 (congrArg Int.cast h)]
  · rw [compare_gt_iff_gt.2 (Int.cast_lt.2 h), Int.compare_eq_gt.2 h]

theorem compare_bit (a b : Bool) : Ord.compare a.toNat b.toNat =
    Ord.compare (if a then (1 : ℚ) else 0) (if b then 1 else 0) := by
  revert a b
  decide +kernel

theorem hasNumber_compared (hv : v.HasNumber x) (hw : w.HasNumber y) (hk : v.kind = w.kind)
    (elements : List Value → List Value → Outcome Ordering) :
    sameKind elements v w = .ok (Ord.compare x y) := by
  obtain ⟨-, hv⟩ := hv
  obtain ⟨-, hw⟩ := hw
  cases v with
  | boolean a =>
    cases w with
    | boolean b =>
      cases hv
      cases hw
      rw [sameKind, compare_bit]
    | _ => cases hk
  | integer j m =>
    cases w with
    | integer k n =>
      cases hv
      cases hw
      rw [sameKind, if_pos (Kind.integer.inj hk), compare_intCast]
    | _ => cases hk
  | numeric d =>
    cases w with
    | numeric e =>
      cases hv
      cases hw
      rw [sameKind, d.compare_eq e]
    | _ => cases hk
  | _ => cases hv

theorem hasNumber_promoted (hv : v.HasNumber x) (hw : w.HasNumber y)
    (hlt : v.kind.rank < w.kind.rank) :
    ∃ v', convert v w.kind (.ofSession s) = .ok v' ∧ v'.kind = w.kind ∧ v'.HasNumber x := by
  have hnull : v.isNull = false := by
    cases v with
    | null => cases hv.2
    | _ => rfl
  rw [convert_eq_byRule hnull (Kind.ne_of_rank_lt hlt)]
  cases w with
  | boolean b =>
    -- no exact kind is below that of booleans
    cases v with
    | boolean | numeric => simp [Kind.rank] at hlt
    | integer j n => exact absurd hlt (Nat.lt_asymm j.rank_between.1)
    | _ => cases hv.2
  | integer k n => exact Convert.toInteger_hasNumber hv hlt _
  | numeric e =>
    obtain ⟨d, hd, hnumber⟩ := Convert.toNumeric_hasNumber hv
    exact ⟨.numeric d, hd, rfl, hnumber⟩
  | _ => cases hw.2

theorem hasNumber_promotes (s : Session) : Promotes s HasNumber fun x y => Ord.compare x y where
  plain {v x} hv := by
    obtain ⟨-, hv⟩ := hv
    cases v <;> cases hv <;> exact ⟨by simp, rfl⟩
  promoted := hasNumber_promoted
  compared hv hw hk := hasNumber_compared hv hw hk _

/-- Booleans, integers and decimals of any sizes and scales always compare, and do so as the sign of
the difference of their numbers says; so the order is transitive across their kinds. -/
theorem exact_number_order (s : Session) {a b c : Value} {x y z : ℚ} (ha : a.HasNumber x)
    (hb : b.HasNumber y) (hc : c.HasNumber z) :
    total s a b = .ok (Ord.compare x y) ∧
      (AtMost (total s) a b ↔ x ≤ y) ∧
      (AtMost (total s) a b → AtMost (total s) b c → AtMost (total s) a c) := by
  have h := hasNumber_promotes s
  refine ⟨h.total_eq ha hb, ?_, h.preordered.trans ⟨x, ha⟩ ⟨y, hb⟩ ⟨z, hc⟩⟩
  simp [AtMost, h.total_eq ha hb, Ordering.isLE_iff_ne_gt, compare_le_iff_le]

theorem exact_number_order_of_least_bigint :
    ∃ a b c : Value, a.HasNumber (-9223372036854775808) ∧ b.HasNumber (-9223372036854775807.9) ∧
      c.HasNumber 1 ∧ total (.system 0 0) a b = .ok .lt ∧ AtMost (total (.system 0 0)) a c := by
  let a : Value := .integer .bigint (.int (-9223372036854775808))
  let b : Value := .numeric ⟨-92233720368547758079, 1⟩
  let c : Value := .boolean true
  have ha : a.HasNumber (-9223372036854775808) := ⟨by rfl, by norm_num [a, number?, Whole.val]⟩
  have hb : b.HasNumber (-9223372036854775807.9) :=
    ⟨trivial, by norm_num [b, number?, Decimal.value]⟩
  have hc : c.HasNumber 1 := ⟨trivial, rfl⟩
  obtain ⟨hab, hle, htrans⟩ := exact_number_order (.system 0 0) ha hb hc
  obtain ⟨-, hbc, -⟩ := exact_number_order (.system 0 0) hb hc ha
  rw [compare_lt_iff_lt.2 (by norm_num)] at hab
  exact ⟨a, b, c, ha, hb, hc, hab, htrans (hle.2 (by norm_num)) (hbc.2 (by norm_num))⟩

end Compare

end Datum
