import Datum.Proofs.Json.Literals
import Datum.Proofs.Number.Shortest

/-!
# Numbers as JSON

The text of a finite number is a JSON document, and that of any other number is one of three words.
A text that goes on with zeros needs another digit in front of them, and so it matters that the
digits of a number are not zero (`Scientific.shortest_digits_ne_zero`).
-/

set_option autoImplicit false

namespace Datum

open Text (unit isDigit minusIf)
open Json (IsFraction IsExponent IsLiteral)

namespace Layout

theorem pointAfter_plain {count : Nat} {digits : Text} (hcount : 0 < count)
    (hdigits : ∀ u ∈ digits, isDigit u = true)
    (hhead : ∃ u, digits.head? = some u ∧ u ≠ unit '0') :
    ∃ whole fraction, plain.pointAfter count digits = whole ++ fraction ∧ whole.IsWhole ∧
      IsFraction fraction := by
  unfold pointAfter
  split
  next =>
    obtain ⟨u, hu, hne⟩ := hhead
    refine ⟨digits ++ List.replicate (count - digits.length) (unit '0'), [], rfl,
      .inr ⟨?_, u, ?_, hne⟩, .inl rfl⟩
    · exact List.forall_mem_append.2 ⟨hdigits, Text.zeros_isDigit _⟩
    · rw [List.head?_append, hu]
      rfl
  next hlong =>
    have hwhole : digits.IsWhole := .inr ⟨hdigits, hhead⟩
    have hne : digits.drop count ≠ [] := by
      rw [ne_eq, List.drop_eq_nil_iff]
      exact hlong
    refine ⟨digits.take count, unit '.' :: digits.drop count, ?_, hwhole.take hcount,
      .inr ⟨digits.drop count, hne, fun u hu => hdigits u (List.mem_of_mem_drop hu), rfl⟩⟩
    rw [List.append_assoc, List.singleton_append]

theorem exponent_plain (n : Int) :
    IsExponent (plain.mark ++ ((if plain.plus && 0 ≤ n then ("+" : Text) else [])
      ++ Text.ofInt n)) := by
  have hdigits := Text.ofNat_isDigit n.natAbs
  have hne := Text.ofNat_ne_nil n.natAbs
  rw [Text.ofInt_eq]
  by_cases hn : n < 0
  · refine .inr ⟨.minus, Text.ofNat n.natAbs, hne, hdigits, ?_⟩
    have hplus : (plain.plus && decide (0 ≤ n)) = false := by simp [hn]
    simp only [hplus, hn, minusIf, decide_true]
    rfl
  · refine .inr ⟨.plus, Text.ofNat n.natAbs, hne, hdigits, ?_⟩
    have hplus : (plain.plus && decide (0 ≤ n)) = true := by simp [plain]; omega
    simp only [hplus, hn, minusIf, decide_false]
    rfl

theorem decimal_plain {d : Scientific} (h : d.digits ≠ 0) :
    ∃ whole fraction exponent, plain.decimal d = whole ++ (fraction ++ exponent) ∧
      whole.IsWhole ∧ IsFraction fraction ∧ IsExponent exponent := by
  have hdigits := Text.ofNat_isDigit d.digits
  have hhead := Text.head?_ofNat h
  simp only [decimal]
  split
  next hpoint =>
    rw [Bool.and_eq_true, decide_eq_true_eq] at hpoint
    obtain ⟨whole, fraction, htext, hwhole, hfraction⟩ :=
      pointAfter_plain (show 0 < ((Text.ofNat d.digits).length + d.exponent).toNat by omega)
        hdigits hhead
    exact ⟨whole, fraction, [], by rw [htext, List.append_nil], hwhole, hfraction, .inl rfl⟩
  split
  next =>
    generalize (-((Text.ofNat d.digits).length + d.exponent)).toNat = n
    have hne : List.replicate n (unit '0') ++ Text.ofNat d.digits ≠ [] := by
      simp [Text.ofNat_ne_nil]
    have hzeros := List.forall_mem_append.2 ⟨Text.zeros_isDigit n, hdigits⟩
    exact ⟨[unit '0'], unit '.' :: (List.replicate n (unit '0') ++ Text.ofNat d.digits), [],
      by rw [List.append_nil]; rfl, .inl rfl, .inr ⟨_, hne, hzeros, rfl⟩, .inl rfl⟩
  next =>
    obtain ⟨whole, fraction, htext, hwhole, hfraction⟩ :=
      pointAfter_plain (show 0 < 1 by decide) hdigits hhead
    generalize ((Text.ofNat d.digits).length : Int) + d.exponent - 1 = n
    refine ⟨whole, fraction, _, ?_, hwhole, hfraction, exponent_plain n⟩
    rw [htext]
    simp only [List.append_assoc]

end Layout

theorem Double.text_of_not_isFinite {x : Double} (h : x.isFinite = false) :
    x.text = "NaN" ∨ x.text = "Infinity" ∨ x.text = "-Infinity" := by
  cases x with
  | nan => exact .inl rfl
  | number negative magnitude =>
    have htop : magnitude.val = top := by
      have hle := magnitude.isLt
      simp only [isFinite, decide_eq_false_iff_not] at h
      omega
    cases negative with
    | false => exact .inr (.inl (by simp [text, Layout.number, htop]))
    | true => exact .inr (.inr (by simp [text, Layout.number, htop]; rfl))

namespace Json

theorem isLiteral_double {x : Double} (h : x.isFinite = true) : IsLiteral x.text := by
  cases x with
  | nan => cases h
  | number negative magnitude =>
    simp only [Double.isFinite, decide_eq_true_eq] at h
    simp only [Double.text, Layout.number, if_neg (Nat.ne_of_lt h)]
    by_cases hzero : magnitude.val = 0
    · rw [if_pos hzero]
      have htext : (if negative = true then Layout.plain.negZero
          else if Layout.plain.wholePoint = true then ("0.0" : Text) else "0") = Text.ofInt 0 := by
        cases negative <;> rfl
      rw [htext]
      exact isLiteral_ofInt 0
    · rw [if_neg hzero]
      obtain ⟨whole, fraction, exponent, htext, hwhole, hfraction, hexponent⟩ :=
        Layout.decimal_plain (Scientific.shortest_digits_ne_zero (by omega) h)
      rw [htext]
      exact isLiteral_number negative hwhole hfraction hexponent

end Json

namespace Num

theorem text_of_not_isFinite {n : Num} (h : n.toDouble.isFinite = false) :
    n.text = n.toDouble.text := by
  cases n with
  | int i =>
    have hsafe : isSafe i ≠ true := by
      intro hsafe
      rw [toDouble, Double.isFinite_ofInt hsafe] at h
      cases h
    exact if_neg hsafe
  | real x _ => rfl

theorem isLiteral_text {n : Num} (h : n.toDouble.isFinite = true) : IsLiteral n.text := by
  cases n with
  | int i =>
    rw [text]
    split
    · exact Json.isLiteral_ofInt i
    · exact Json.isLiteral_double h
  | real x _ => exact Json.isLiteral_double h

end Num

end Datum
