import Datum.Proofs.Equality
import Mathlib.Data.List.Forall2

/-!
# Laws of equality

Equality of values is an equivalence that keeps kinds apart, and equal values have the same hash.
-/

set_option autoImplicit false

namespace Datum.Value

/-- Values that equality does not tell apart. Beside arrays and rows, which are equal element by
element, two forms of one value differ only in what equality passes over. -/
inductive Alike : Value → Value → Prop where
  | same {v : Value} (h : v.elements? = none) : Alike v v
  | integer (k : IntegerKind) {m n : Whole} (h : m.val = n.val) :
    Alike (.integer k m) (.integer k n)
  | date {d e : Whole} (h : d.val = e.val) : Alike (.date d) (.date e)
  | timeTz (nanos : Int) {o p : Whole} (h : o.val = p.val) :
    Alike (.timeTz nanos o) (.timeTz nanos p)
  | timestamp {d e : Whole} (nanos : Int) (h : d.val = e.val) :
    Alike (.timestamp d nanos) (.timestamp e nanos)
  | timestampTz {d e : Whole} (nanos : Int) {o p : Whole} (hday : d.val = e.val)
    (hoffset : o.val = p.val) : Alike (.timestampTz d nanos o) (.timestampTz e nanos p)
  | array {a b : List Value} (h : allEqual a b = true) : Alike (.array a) (.array b)
  | row {a b : List Value} (h : allEqual a b = true) : Alike (.row a) (.row b)
  | resultSet (mark : Nat) (columns columns' : List Column) (rows rows' : List (List Value)) :
    Alike (.resultSet mark columns rows) (.resultSet mark columns' rows')
  | object (data : Bytes) (held held' : Held Value) : Alike (.object data held) (.object data held')
  | geometry {g g' : Geometry} (h : g.data = g'.data) : Alike (.geometry g) (.geometry g')
  | enum {e f : Enumerator} (hlabel : e.label = f.label) (hordinal : e.ordinal = f.ordinal) :
    Alike (.enum e) (.enum f)

theorem equals_iff {v w : Value} : v.equals w = true ↔ Alike v w := by
  constructor
  · intro h
    -- by the kind that the values share, in the order in which `equals` looks at them
    unfold equals at h
    split at h
    · exact .same rfl
    · obtain rfl := eq_of_beq h
      exact .same rfl
    · simp only [Bool.and_eq_true, beq_iff_eq] at h
      rw [h.1]
      exact .integer _ h.2
    · obtain rfl := eq_of_beq h
      exact .same rfl
    · simp only [Bool.and_eq_true, beq_iff_eq] at h
      rw [h.1, h.2]
      exact .same rfl
    · exact .date (eq_of_beq h)
    · obtain rfl := eq_of_beq h
      exact .same rfl
    · simp only [Bool.and_eq_true, beq_iff_eq] at h
      rw [h.1]
      exact .timeTz _ h.2
    · simp only [Bool.and_eq_true, beq_iff_eq] at h
      rw [h.2]
      exact .timestamp _ h.1
    · simp only [Bool.and_eq_true, beq_iff_eq] at h
      rw [h.1.2]
      exact .timestampTz _ h.1.1 h.2
    · obtain rfl := eq_of_beq h
      exact .same rfl
    · simp only [Bool.and_eq_true, beq_iff_eq] at h
      rw [h.1, h.2]
      exact .same rfl
    · obtain rfl := eq_of_beq h
      exact .same rfl
    · exact .array h
    · exact .row h
    · obtain rfl := eq_of_beq h
      exact .resultSet _ _ _ _ _
    · obtain rfl := eq_of_beq h
      exact .object _ _ _
    · obtain rfl := eq_of_beq h
      exact .same rfl
    · exact .geometry (eq_of_beq h)
    · simp only [Bool.and_eq_true, beq_iff_eq] at h
      exact .enum h.2 h.1
    · obtain rfl := eq_of_beq h
      exact .same rfl
    · simp only [Bool.and_eq_true, beq_iff_eq] at h
      rw [h.1, h.2]
      exact .same rfl
    · simp at h
  · intro h
    cases h with
    | same => exact equals_refl v
    | array h | row h => exact h
    | _ => simp_all [equals]

theorem kind_eq_of_equals {v w : Value} (h : v.equals w = true) : v.kind = w.kind := by
  cases equals_iff.1 h <;> rfl

section Lists

variable {l r t : List Value}

theorem allEqual_iff : allEqual l r = true ↔ List.Forall₂ (fun v w => v.equals w = true) l r := by
  induction l generalizing r with
  | nil => cases r <;> simp [allEqual]
  | cons v l ih => cases r <;> simp [allEqual, ih]

theorem allEqual_length (h : allEqual l r = true) : l.length = r.length :=
  (allEqual_iff.1 h).length_eq

theorem allEqual_symm (hl : ∀ v ∈ l, ∀ w, v.equals w = true → w.equals v = true)
    (h : allEqual l r = true) : allEqual r l = true := by
  rw [allEqual_iff] at h ⊢
  induction h with
  | nil => exact .nil
  | cons hvw _ ih => exact .cons (hl _ (by simp) _ hvw) (ih fun v hv => hl v (by simp [hv]))

theorem allEqual_trans
    (hl : ∀ u ∈ l, ∀ v w, u.equals v = true → v.equals w = true → u.equals w = true)
    (h : allEqual l r = true) (h' : allEqual r t = true) : allEqual l t = true := by
  rw [allEqual_iff] at h h' ⊢
  induction h generalizing t with
  | nil => exact h'
  | cons huv _ ih =>
    cases h' with
    | cons hvw h' =>
      exact .cons (hl _ (by simp) _ _ huv hvw) (ih (fun u hu => hl u (by simp [hu])) h')

theorem hashes_eq (hl : ∀ v ∈ l, ∀ w ∈ r, v.equals w = true → v.hash = w.hash)
    (h : allEqual l r = true) : hashes l = hashes r := by
  rw [allEqual_iff] at h
  induction h with
  | nil => rfl
  | cons hvw _ ih =>
    have hrest := ih fun v hv w hw => hl v (by simp [hv]) w (by simp [hw])
    simp only [hashes, hl _ (by simp) _ (by simp) hvw, hrest]

end Lists

theorem equals_symm {v w : Value} (h : v.equals w = true) : w.equals v = true := by
  induction v using induction_on_parts generalizing w with
  | step v ih =>
    cases equals_iff.1 h with
    | same => exact h
    | array h | row h => exact allEqual_symm (fun u hu w => ih u hu) h
    | _ => simp_all [equals]

theorem equals_comm (v w : Value) : v.equals w = w.equals v :=
  Bool.eq_iff_iff.2 ⟨equals_symm, equals_symm⟩

theorem equals_trans {u v w : Value} (h : u.equals v = true) (h' : v.equals w = true) :
    u.equals w = true := by
  induction u using induction_on_parts generalizing v w with
  | step u ih =>
    cases equals_iff.1 h with
    | same => exact h'
    | array huv =>
      cases equals_iff.1 h' with
      | same => exact h
      | array hvw => exact allEqual_trans (fun a ha b c => ih a ha) huv hvw
    | row huv =>
      cases equals_iff.1 h' with
      | same => exact h
      | row hvw => exact allEqual_trans (fun a ha b c => ih a ha) huv hvw
    | _ => cases equals_iff.1 h' <;> simp_all [equals]

theorem hash_eq_of_equals {v w : Value} (hmarks : MarksAgree v w) (h : v.equals w = true) :
    v.hash = w.hash := by
  induction v using induction_on_parts generalizing w with
  | step v ih =>
    cases equals_iff.1 h with
    | same => rfl
    | integer k hval => cases k <;> simp [hash, hval]
    | @array a b hab | @row a b hab =>
      have hparts : hashes a = hashes b :=
        hashes_eq (fun v hv w hw => ih v hv (hmarks.part hv hw)) hab
      simp only [hash, hparts]
    | resultSet mark columns columns' rows rows' =>
      obtain ⟨rfl, rfl⟩ := hmarks mark columns rows columns' rows' .self .self
      rfl
    | _ => simp_all [hash]

end Datum.Value
