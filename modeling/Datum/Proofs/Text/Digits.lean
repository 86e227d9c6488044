import Datum.Text
import Mathlib.Data.List.TakeWhile
import Mathlib.Data.Nat.Digits.Lemmas

/-!
# Decimal digits

A number is written with the digits of its base 10 expansion (`digitsOf_eq`), a run of digits
denotes the number that it expands (`digitsValue_eq`), and so reading a written number gives it
back, with zeros in front or without. An integer literal is a sign and digits (`toInt?_eq_some`).
-/

set_option autoImplicit false

namespace Datum.Text

theorem isDigit_digitUnit {d : Nat} (h : d < 10) : isDigit (digitUnit d) = true := by
  revert d
  decide

theorem digitValue_digitUnit {d : Nat} (h : d < 10) : digitValue (digitUnit d) = d := by
  revert d
  decide

theorem digitBlock_lt (k n : Nat) : ∀ d ∈ digitBlock k n, d < 10 := by
  induction k generalizing n with
  | zero =>
    intro d hd
    have hd : d = n % 10 := by simpa [digitBlock] using hd
    omega
  | succ k ih =>
    intro d hd
    rcases List.mem_append.1 hd with hd | hd
    · exact ih _ d hd
    · exact ih _ d hd

theorem digitBlock_length (k n : Nat) : (digitBlock k n).length = 2 ^ k := by
  induction k generalizing n with
  | zero => rfl
  | succ k ih =>
    simp only [digitBlock, List.length_append, ih]
    ring

/-- A block of digits has the value of the number without what lies before the block. -/
theorem ofDigits_digitBlock (k n : Nat) :
    Nat.ofDigits 10 (digitBlock k n).reverse = n % 10 ^ 2 ^ k := by
  induction k generalizing n with
  | zero => simp [digitBlock]
  | succ k ih =>
    have hsplit : (10 : Nat) ^ 2 ^ (k + 1) = 10 ^ 2 ^ k * 10 ^ 2 ^ k := by ring
    change Nat.ofDigits 10 (digitBlock k (n / 10 ^ 2 ^ k) ++ digitBlock k (n % 10 ^ 2 ^ k)).reverse
      = _
    rw [List.reverse_append, Nat.ofDigits_append, ih, ih, List.length_reverse, digitBlock_length,
      hsplit, Nat.mod_mul, Nat.mod_mod]

theorem ofDigits_dropZeros (l : List Nat) :
    Nat.ofDigits 10 (l.dropWhile (· == 0)).reverse = Nat.ofDigits 10 l.reverse := by
  induction l with
  | nil => rfl
  | cons d l ih =>
    by_cases hd : d = 0
    · subst hd
      rw [List.dropWhile_cons_of_pos rfl, ih, List.reverse_cons, Nat.ofDigits_append_zero]
    · rw [List.dropWhile_cons_of_neg (by simpa using hd)]

theorem lt_digitBlock (n : Nat) : n < 10 ^ 2 ^ (Nat.log2 (Nat.log2 n + 1) + 1) := by
  have hwidth : Nat.log2 n + 1 ≤ 2 ^ (Nat.log2 (Nat.log2 n + 1) + 1) :=
    Nat.le_of_lt Nat.lt_log2_self
  calc
    n < 2 ^ (Nat.log2 n + 1) := Nat.lt_log2_self
    _ ≤ 10 ^ (Nat.log2 n + 1) := Nat.pow_le_pow_left (by omega) _
    _ ≤ 10 ^ 2 ^ (Nat.log2 (Nat.log2 n + 1) + 1) := Nat.pow_le_pow_right (by omega) hwidth

theorem digitsOf_eq (n : Nat) : digitsOf n = (Nat.digits 10 n).reverse := by
  have hvalue : Nat.ofDigits 10 (digitsOf n).reverse = n := by
    rw [digitsOf, ofDigits_dropZeros, ofDigits_digitBlock, Nat.mod_eq_of_lt (lt_digitBlock n)]
  have hlt : ∀ d ∈ (digitsOf n).reverse, d < 10 := by
    intro d hd
    exact digitBlock_lt _ n d (List.dropWhile_sublist _ |>.mem (List.mem_reverse.1 hd))
  have hlast : ∀ h : (digitsOf n).reverse ≠ [], (digitsOf n).reverse.getLast h ≠ 0 := by
    intro h hzero
    have hne : digitsOf n ≠ [] := by simpa using h
    have hhead : ((digitsOf n).head hne == 0) = false := List.head_dropWhile_not _ hne
    rw [List.getLast_reverse] at hzero
    simp [hzero] at hhead
  have h := Nat.digits_ofDigits 10 (by omega) _ hlt hlast
  rw [hvalue] at h
  rw [h, List.reverse_reverse]

theorem ofNat_eq {n : Nat} (h : n ≠ 0) : ofNat n = (Nat.digits 10 n).reverse.map digitUnit := by
  rw [ofNat, if_neg h, digitsOf_eq]

theorem ofNat_isDigit (n : Nat) : ∀ u ∈ ofNat n, isDigit u = true := by
  intro u hu
  by_cases h : n = 0
  · subst h
    have hu : u = digitUnit 0 := by simpa [ofNat] using hu
    rw [hu]
    decide
  · rw [ofNat_eq h] at hu
    obtain ⟨d, hd, rfl⟩ := List.mem_map.1 hu
    exact isDigit_digitUnit (Nat.digits_lt_base (by omega) (List.mem_reverse.1 hd))

theorem ofNat_ne_nil (n : Nat) : ofNat n ≠ [] := by
  by_cases h : n = 0
  · simp [ofNat, h]
  · simpa [ofNat_eq h, Nat.digits_eq_nil_iff_eq_zero] using h

theorem length_ofNat_le_iff (n : Nat) {k : Nat} (hk : k ≠ 0) :
    (ofNat n).length ≤ k ↔ n < 10 ^ k := by
  by_cases h : n = 0
  · subst h
    simp only [ofNat, if_true, List.length_singleton]
    exact ⟨fun _ => Nat.pow_pos (by omega), fun _ => by omega⟩
  · rw [ofNat_eq h, List.length_map, List.length_reverse]
    exact Nat.digits_length_le_iff (by omega) n

theorem digitsValue_eq (t : Text) :
    digitsValue t = Nat.ofDigits 10 (t.map digitValue).reverse := by
  have h (t : Text) (n : Nat) : t.foldl (fun n u => n * 10 + digitValue u) n
      = Nat.ofDigits 10 (t.map digitValue).reverse + 10 ^ t.length * n := by
    induction t generalizing n with
    | nil => simp
    | cons u t ih =>
      rw [List.foldl_cons, ih, List.map_cons, List.reverse_cons, Nat.ofDigits_append,
        Nat.ofDigits_singleton, List.length_reverse, List.length_map, List.length_cons, pow_succ]
      ring
  simpa [digitsValue] using h t 0

theorem digitsValue_append (s t : Text) :
    digitsValue (s ++ t) = digitsValue s * 10 ^ t.length + digitsValue t := by
  rw [digitsValue_eq, digitsValue_eq, digitsValue_eq, List.map_append, List.reverse_append,
    Nat.ofDigits_append, List.length_reverse, List.length_map]
  ring

theorem digitsValue_ofNat (n : Nat) : digitsValue (ofNat n) = n := by
  by_cases h : n = 0
  · subst h
    rfl
  · have hmap : ((Nat.digits 10 n).map digitUnit).map digitValue = Nat.digits 10 n := by
      rw [List.map_map, List.map_congr_left (g := id) fun d hd => ?_, List.map_id]
      exact digitValue_digitUnit (Nat.digits_lt_base (by omega) hd)
    rw [digitsValue_eq, ofNat_eq h, List.map_reverse, List.map_reverse, List.reverse_reverse, hmap,
      Nat.ofDigits_digits]

theorem digitsValue_zeros (k : Nat) : digitsValue (List.replicate k (unit '0')) = 0 := by
  induction k with
  | zero => rfl
  | succ k ih =>
    rw [List.replicate_succ', digitsValue_append, ih]
    rfl

theorem digitsValue_padZeros (width : Nat) (t : Text) :
    digitsValue (padZeros width t) = digitsValue t := by
  rw [padZeros, digitsValue_append, digitsValue_zeros, Nat.zero_mul, Nat.zero_add]

theorem length_padZeros (width : Nat) (t : Text) :
    (padZeros width t).length = max width t.length := by
  simp only [padZeros, List.length_append, List.length_replicate]
  omega

theorem padZeros_of_le {width : Nat} {t : Text} (h : width ≤ t.length) : padZeros width t = t := by
  rw [padZeros, Nat.sub_eq_zero_of_le h, List.replicate_zero, List.nil_append]

theorem zeros_isDigit (k : Nat) : ∀ u ∈ List.replicate k (unit '0'), isDigit u = true := by
  intro u hu
  rw [List.eq_of_mem_replicate hu]
  decide

theorem padZeros_isDigit {t : Text} (ht : ∀ u ∈ t, isDigit u = true) (width : Nat) :
    ∀ u ∈ padZeros width t, isDigit u = true :=
  List.forall_mem_append.2 ⟨zeros_isDigit _, ht⟩

theorem padZeros_ne_nil {t : Text} (ht : t ≠ []) (width : Nat) : padZeros width t ≠ [] := by
  simp [padZeros, ht]

structure IsNumeral (t : Text) (n : Nat) : Prop where
  ne_nil : t ≠ []
  isDigit : ∀ u ∈ t, isDigit u = true
  value : digitsValue t = n

theorem isNumeral_ofNat (n : Nat) : IsNumeral (ofNat n) n :=
  ⟨ofNat_ne_nil n, ofNat_isDigit n, digitsValue_ofNat n⟩

theorem IsNumeral.padZeros {t : Text} {n : Nat} (h : IsNumeral t n) (width : Nat) :
    IsNumeral (padZeros width t) n :=
  ⟨padZeros_ne_nil h.ne_nil width, padZeros_isDigit h.isDigit width,
    (digitsValue_padZeros width t).trans h.value⟩

def IsWhole (t : Text) : Prop :=
  t = [unit '0'] ∨ (∀ u ∈ t, isDigit u = true) ∧ ∃ u, t.head? = some u ∧ u ≠ unit '0'

theorem digitUnit_ne_zero {d : Nat} (h : d < 10) (hd : d ≠ 0) : digitUnit d ≠ unit '0' := by
  revert d
  decide

theorem head?_ofNat {n : Nat} (h : n ≠ 0) : ∃ u, (ofNat n).head? = some u ∧ u ≠ unit '0' := by
  have hne : Nat.digits 10 n ≠ [] := Nat.digits_ne_nil_iff_ne_zero.2 h
  have hlast := Nat.getLast_digit_ne_zero 10 h
  have hlt : (Nat.digits 10 n).getLast hne < 10 :=
    Nat.digits_lt_base (by omega) (List.getLast_mem hne)
  refine ⟨digitUnit ((Nat.digits 10 n).getLast hne), ?_, digitUnit_ne_zero hlt hlast⟩
  rw [ofNat_eq h, List.map_reverse, List.head?_reverse, List.getLast?_map,
    List.getLast?_eq_some_getLast hne]
  rfl

theorem ofNat_isWhole (n : Nat) : IsWhole (ofNat n) := by
  by_cases h : n = 0
  · subst h
    exact .inl rfl
  · exact .inr ⟨ofNat_isDigit n, head?_ofNat h⟩

theorem IsWhole.take {t : Text} (h : IsWhole t) {n : Nat} (hn : 0 < n) : IsWhole (t.take n) := by
  cases n with
  | zero => omega
  | succ n =>
    rcases h with rfl | ⟨hdigits, u, hu, hne⟩
    · exact .inl (by simp)
    · refine .inr ⟨fun v hv => hdigits v (List.mem_of_mem_take hv), u, ?_, hne⟩
      rw [List.head?_take, if_neg (by omega), hu]

theorem IsWhole.all_isDigit {t : Text} (h : IsWhole t) : ∀ u ∈ t, isDigit u = true := by
  rcases h with rfl | ⟨hdigits, -⟩
  · exact List.forall_mem_singleton.2 (by decide)
  · exact hdigits

theorem IsWhole.exists_cons {t : Text} (h : IsWhole t) :
    ∃ u s, t = u :: s ∧ isDigit u = true := by
  rcases h with rfl | ⟨hdigits, u, hu, -⟩
  · exact ⟨unit '0', [], rfl, by decide⟩
  · cases t with
    | nil => cases hu
    | cons v s => exact ⟨v, s, rfl, hdigits v List.mem_cons_self⟩

def NoDigitNext (t : Text) : Prop := ∀ u, t.head? = some u → isDigit u = false

theorem noDigitNext_nil : NoDigitNext [] := by
  intro u h
  cases h

theorem noDigitNext_cons {u : UInt16} {t : Text} (h : isDigit u = false) :
    NoDigitNext (u :: t) := by
  intro v hv
  cases hv
  exact h

theorem spanDigits_append {s t : Text} (hs : ∀ u ∈ s, isDigit u = true) (ht : NoDigitNext t) :
    spanDigits (s ++ t) = (s, t) := by
  have htake : t.takeWhile isDigit = [] := by
    cases t with
    | nil => rfl
    | cons u t => exact List.takeWhile_cons_of_neg (by simp [ht u rfl])
  have hdrop : t.dropWhile isDigit = t := by
    cases t with
    | nil => rfl
    | cons u t => exact List.dropWhile_cons_of_neg (by simp [ht u rfl])
  rw [spanDigits, List.span_eq_takeWhile_dropWhile, List.takeWhile_append_of_pos hs,
    List.dropWhile_append_of_pos hs, htake, hdrop, List.append_nil]

theorem spanDigits_split (t : Text) :
    (∀ u ∈ (spanDigits t).1, isDigit u = true) ∧ (spanDigits t).1 ++ (spanDigits t).2 = t := by
  rw [spanDigits, List.span_eq_takeWhile_dropWhile]
  exact ⟨fun u hu => List.mem_takeWhile_imp hu, List.takeWhile_append_dropWhile⟩

theorem spanDigits_self {s : Text} (hs : ∀ u ∈ s, isDigit u = true) : spanDigits s = (s, []) := by
  have h := spanDigits_append hs noDigitNext_nil
  rwa [List.append_nil] at h

theorem allDigits_of_isDigit {t : Text} (h : ∀ u ∈ t, isDigit u = true) : allDigits t = true :=
  List.all_eq_true.2 h

end Datum.Text

namespace Datum

open Text (unit)

inductive Sign where
  | none
  | plus
  | minus

namespace Sign

def text : Sign → Text
  | none => []
  | plus => [unit '+']
  | minus => [unit '-']

def isMinus : Sign → Bool
  | minus => true
  | _ => false

def factor : Sign → Int
  | minus => -1
  | _ => 1

theorem factor_mul (s : Sign) (n : Nat) : s.factor * n = if s.isMinus then -(n : Int) else n := by
  cases s <;> simp [factor, isMinus]

end Sign

theorem takeSign_unsigned {t : Text} (h : ∀ u, t.head? = some u → u ≠ unit '-' ∧ u ≠ unit '+') :
    Text.takeSign t = (false, t) := by
  cases t with
  | nil => rfl
  | cons u t =>
    obtain ⟨hminus, hplus⟩ := h u rfl
    rw [Text.takeSign, if_neg hminus, if_neg hplus]

theorem exists_sign (t : Text) :
    ∃ s : Sign, s.text ++ (Text.takeSign t).2 = t ∧ s.isMinus = (Text.takeSign t).1 := by
  cases t with
  | nil => exact ⟨.none, rfl, rfl⟩
  | cons u t =>
    simp only [Text.takeSign]
    split
    next h => exact ⟨.minus, by rw [h]; rfl, rfl⟩
    next =>
      split
      next h => exact ⟨.plus, by rw [h]; rfl, rfl⟩
      next => exact ⟨.none, rfl, rfl⟩

theorem takeSign_text {t : Text} (s : Sign)
    (h : ∀ u, t.head? = some u → u ≠ unit '-' ∧ u ≠ unit '+') :
    Text.takeSign (s.text ++ t) = (s.isMinus, t) := by
  cases s with
  | none => exact takeSign_unsigned h
  | plus | minus => rfl

namespace Text

theorem head_ne_sign {s : Text} (h : ∀ u ∈ s, isDigit u = true) (hne : s ≠ []) (t : Text) :
    ∀ u, (s ++ t).head? = some u → u ≠ unit '-' ∧ u ≠ unit '+' := by
  intro u hu
  rw [List.head?_append_of_ne_nil s hne] at hu
  have hdigit := h u (List.mem_of_head? hu)
  constructor <;> rintro rfl <;> exact absurd hdigit (by decide)

def minusIf (negative : Bool) : Text := if negative then [unit '-'] else []

theorem eq_of_mem_minusIf {negative : Bool} {u : UInt16} (h : u ∈ minusIf negative) :
    u = unit '-' := by
  cases negative with
  | false => cases h
  | true => exact List.mem_singleton.1 h

theorem exists_minusIf (negative : Bool) :
    ∃ s : Sign, s.text = minusIf negative ∧ s.isMinus = negative := by
  cases negative with
  | false => exact ⟨.none, rfl, rfl⟩
  | true => exact ⟨.minus, rfl, rfl⟩

theorem takeSign_minusIf (negative : Bool) {s : Text} (hne : s ≠ [])
    (hs : ∀ u ∈ s, isDigit u = true) (t : Text) :
    takeSign (minusIf negative ++ (s ++ t)) = (negative, s ++ t) := by
  obtain ⟨sign, htext, hminus⟩ := exists_minusIf negative
  rw [← htext, takeSign_text sign (head_ne_sign hs hne t), hminus]

theorem toInt?_eq_some {t : Text} {n : Int} : toInt? t = some n ↔
    ∃ (s : Sign) (digits : Text), digits ≠ [] ∧ (∀ u ∈ digits, isDigit u = true) ∧
      s.text ++ digits = t ∧ s.factor * digitsValue digits = n := by
  constructor
  · intro h
    obtain ⟨s, hsplit, hminus⟩ := exists_sign t
    simp only [toInt?, ← hminus] at h
    split at h
    next => cases h
    next hdigits =>
      simp only [Bool.or_eq_true, not_or, List.isEmpty_iff, Bool.not_eq_true', Bool.not_eq_false]
        at hdigits
      refine ⟨s, (takeSign t).2, hdigits.1, List.all_eq_true.1 hdigits.2, hsplit, ?_⟩
      rw [Sign.factor_mul]
      exact Option.some.inj h
  · rintro ⟨s, digits, hne, hdigits, rfl, rfl⟩
    have hsign := takeSign_text s (head_ne_sign hdigits hne [])
    rw [List.append_nil] at hsign
    simp only [toInt?, hsign, allDigits_of_isDigit hdigits, List.isEmpty_iff, hne, Bool.not_true,
      Bool.or_false, Sign.factor_mul]
    rfl

theorem ofInt_eq (n : Int) : ofInt n = minusIf (n < 0) ++ ofNat n.natAbs := by
  by_cases h : n < 0
  · simp [ofInt, minusIf, h]
  · simp [ofInt, minusIf, h]

theorem ofInt_natCast (n : Nat) : ofInt n = ofNat n := by
  have hsign : ¬(n : Int) < 0 := by omega
  rw [ofInt, if_neg hsign, Int.natAbs_natCast]

theorem toInt?_ofInt (n : Int) : toInt? (ofInt n) = some n := by
  obtain ⟨sign, htext, hminus⟩ := exists_minusIf (n < 0)
  refine toInt?_eq_some.2 ⟨sign, ofNat n.natAbs, ofNat_ne_nil _, ofNat_isDigit _, ?_, ?_⟩
  · rw [htext, ofInt_eq]
  · rw [Sign.factor_mul, hminus, digitsValue_ofNat]
    simp only [decide_eq_true_eq]
    split <;> omega

end Text

end Datum
