import Datum.Proofs.Number.DecimalText
import Datum.Proofs.Number.DecimalValue
import Mathlib.Tactic.Positivity

/-!
# Decimal literals

How a decimal literal is written (`Spelling`): a sign, digits with a point, and an exponent, of
which only a digit is needed. The reader takes exactly these texts, with exponents within its bound,
and gives the number that they denote. The text of a decimal is the literal without an exponent and
without a zero in front that could be left out.
-/

set_option autoImplicit false

namespace Datum.Decimal

open Text (unit digitsValue)

structure Exponent where
  mark : UInt16
  sign : Sign
  digits : Text

namespace Exponent

def text (e : Exponent) : Text := e.mark :: (e.sign.text ++ e.digits)

def value (e : Exponent) : Int := e.sign.factor * digitsValue e.digits

structure IsValid (e : Exponent) : Prop where
  mark : e.mark = unit 'e' ∨ e.mark = unit 'E'
  ne_nil : e.digits ≠ []
  isDigit : ∀ u ∈ e.digits, Text.isDigit u = true

theorem IsValid.mark_isDigit {e : Exponent} (h : e.IsValid) : Text.isDigit e.mark = false := by
  rcases h.mark with hmark | hmark <;> rw [hmark] <;> decide

theorem IsValid.mark_ne_point {e : Exponent} (h : e.IsValid) : e.mark ≠ unit '.' := by
  rcases h.mark with hmark | hmark <;> rw [hmark] <;> decide

end Exponent

/-- The parts of a literal. The point may stand before all digits or behind them. -/
structure Spelling where
  sign : Sign
  whole : Text
  fraction : Option Text
  exponent : Option Exponent

namespace Spelling

def pointText : Option Text → Text
  | none => []
  | some digits => unit '.' :: digits

def exponentText : Option Exponent → Text
  | none => []
  | some e => e.text

def text (l : Spelling) : Text :=
  l.sign.text ++ (l.whole ++ (pointText l.fraction ++ exponentText l.exponent))

def decimals (l : Spelling) : Text := l.fraction.getD []

def power (l : Spelling) : Int := (l.exponent.map Exponent.value).getD 0

def value (l : Spelling) : ℚ :=
  l.sign.factor * (digitsValue l.whole + digitsValue l.decimals / 10 ^ l.decimals.length) *
    10 ^ l.power

structure IsValid (l : Spelling) : Prop where
  whole : ∀ u ∈ l.whole, Text.isDigit u = true
  decimals : ∀ u ∈ l.decimals, Text.isDigit u = true
  hasDigit : l.whole ≠ [] ∨ l.decimals ≠ []
  exponent : ∀ e, l.exponent = some e → e.IsValid

def literal (l : Spelling) : Literal :=
  ⟨l.sign.isMinus, digitsValue (l.whole ++ l.decimals), l.decimals.length, l.power⟩

end Spelling

open Spelling (pointText exponentText)

section Parts

variable {f : Option Text} {e : Option Exponent} {t : Text} {n : Int}

theorem exponent?_eq_some : exponent? t = some n ↔ ∃ e : Option Exponent,
    (∀ x, e = some x → x.IsValid) ∧ exponentText e = t ∧ (e.map Exponent.value).getD 0 = n := by
  constructor
  · intro h
    cases t with
    | nil =>
      cases h
      exact ⟨none, by simp, rfl, rfl⟩
    | cons mark rest =>
      simp only [exponent?] at h
      split at h
      next hmark =>
        obtain ⟨sign, digits, hne, hdigits, hsplit, hvalue⟩ := Text.toInt?_eq_some.1 h
        refine ⟨some ⟨mark, sign, digits⟩, ?_, congrArg (mark :: ·) hsplit, hvalue⟩
        rintro _ ⟨⟩
        exact ⟨by simpa using hmark, hne, hdigits⟩
      next => cases h
  · rintro ⟨e, hvalid, rfl, rfl⟩
    cases e with
    | none => rfl
    | some e =>
      obtain ⟨hmark, hne, hdigits⟩ := hvalid e rfl
      change (if e.mark = unit 'e' || e.mark = unit 'E' then Text.toInt? _ else none) = some e.value
      rw [if_pos (by simpa using hmark)]
      exact Text.toInt?_eq_some.2 ⟨e.sign, e.digits, hne, hdigits, rfl, rfl⟩

theorem exponentText_noDigitNext (he : ∀ x, e = some x → x.IsValid) :
    Text.NoDigitNext (exponentText e) := by
  cases e with
  | none => exact Text.noDigitNext_nil
  | some e => exact Text.noDigitNext_cons (he e rfl).mark_isDigit

theorem pointText_noDigitNext (f : Option Text) (he : ∀ x, e = some x → x.IsValid) :
    Text.NoDigitNext (pointText f ++ exponentText e) := by
  cases f with
  | none => exact exponentText_noDigitNext he
  | some digits => exact Text.noDigitNext_cons (by decide)

theorem spanFraction_pointText (hf : ∀ u ∈ f.getD [], Text.isDigit u = true)
    (he : ∀ x, e = some x → x.IsValid) :
    spanFraction (pointText f ++ exponentText e) = (f.getD [], exponentText e) := by
  cases f with
  | some digits => exact Text.spanDigits_append hf (exponentText_noDigitNext he)
  | none =>
    cases e with
    | none => rfl
    | some e => exact if_neg (he e rfl).mark_ne_point

theorem exists_fraction (t : Text) : ∃ f : Option Text, (∀ u ∈ f.getD [], Text.isDigit u = true) ∧
    f.getD [] = (spanFraction t).1 ∧ pointText f ++ (spanFraction t).2 = t := by
  cases t with
  | nil => exact ⟨none, by simp, rfl, rfl⟩
  | cons u rest =>
    rw [spanFraction]
    split
    next hpoint =>
      obtain ⟨hdigits, hsplit⟩ := Text.spanDigits_split rest
      exact ⟨some (Text.spanDigits rest).1, hdigits, rfl, congrArg₂ (· :: ·) hpoint.symm hsplit⟩
    next => exact ⟨none, by simp, rfl, rfl⟩

end Parts

theorem head_unsigned {l : Spelling} (h : l.IsValid) :
    ∀ u, (l.whole ++ (pointText l.fraction ++ exponentText l.exponent)).head? = some u →
      u ≠ unit '-' ∧ u ≠ unit '+' := by
  intro u hu
  cases hwhole : l.whole with
  | cons v rest =>
    rw [hwhole] at hu
    exact Text.head_ne_sign h.whole (by simp [hwhole]) _ u (by rw [hwhole]; exact hu)
  | nil =>
    have hdecimals := h.hasDigit.resolve_left (not_not_intro hwhole)
    rw [Spelling.decimals] at hdecimals
    rw [hwhole] at hu
    cases hfraction : l.fraction with
    | none => simp [hfraction] at hdecimals
    | some digits =>
      rw [hfraction] at hu
      cases hu
      decide

theorem literal?_eq_some {t : Text} {x : Literal} :
    literal? t = some x ↔ ∃ l : Spelling, l.IsValid ∧ l.text = t ∧ l.literal = x := by
  constructor
  · intro h
    obtain ⟨sign, hsign, hminus⟩ := exists_sign t
    obtain ⟨hwhole, hbody⟩ := Text.spanDigits_split (Text.takeSign t).2
    obtain ⟨f, hf, hdecimals, hrest⟩ := exists_fraction (Text.spanDigits (Text.takeSign t).2).2
    simp only [literal?, Option.bind_eq_bind, Option.bind_eq_some_iff] at h
    obtain ⟨n, hexponent, h⟩ := h
    obtain ⟨e, he, htail, hpower⟩ := exponent?_eq_some.1 hexponent
    split at h
    next => cases h
    next hempty =>
      refine ⟨⟨sign, (Text.spanDigits (Text.takeSign t).2).1, f, e⟩, ⟨hwhole, hf, ?_, he⟩, ?_, ?_⟩
      · rwa [← hdecimals, Bool.and_eq_true, List.isEmpty_iff, List.isEmpty_iff, not_and_or]
          at hempty
      · rw [Spelling.text, htail, hrest, hbody, hsign]
      · rw [Spelling.literal, Spelling.decimals, Spelling.power, hminus, hpower, hdecimals]
        exact Option.some.inj h
  · rintro ⟨l, h, rfl, rfl⟩
    have hempty : (l.whole.isEmpty && l.decimals.isEmpty) = false := by
      rw [Bool.and_eq_false_iff, List.isEmpty_eq_false_iff, List.isEmpty_eq_false_iff]
      exact h.hasDigit
    have hexponent : exponent? (exponentText l.exponent) = some l.power :=
      exponent?_eq_some.2 ⟨l.exponent, h.exponent, rfl, rfl⟩
    have hfraction := spanFraction_pointText (f := l.fraction) h.decimals h.exponent
    have hwhole := Text.spanDigits_append h.whole (pointText_noDigitNext l.fraction h.exponent)
    rw [Spelling.decimals] at hempty
    simp only [literal?, Spelling.text, takeSign_text l.sign (head_unsigned h), hwhole, hfraction,
      hexponent, hempty]
    rfl

theorem value_ofScaled (n scale : Int) : (ofScaled n scale).value = n * 10 ^ (-scale) := by
  rw [ofScaled]
  split
  next hneg =>
    obtain ⟨k, hk⟩ := Int.eq_ofNat_of_zero_le (a := -scale) (by omega)
    rw [hk, Int.toNat_natCast, zpow_natCast, value]
    simp
  next hpos =>
    obtain ⟨k, rfl⟩ := Int.eq_ofNat_of_zero_le (Int.not_lt.1 hpos)
    rw [Int.toNat_natCast, zpow_neg, zpow_natCast, value, div_eq_mul_inv]

theorem scale_ofScaled (n scale : Int) : ((ofScaled n scale).scale : Int) = max 0 scale := by
  rw [ofScaled]
  split <;> simp only <;> omega

def Literal.decimal (x : Literal) : Decimal :=
  ofScaled (Double.signed x.negative x.digits) (x.places - x.exponent)

theorem Spelling.value_decimal (l : Spelling) : l.literal.decimal.value = l.value := by
  have hsigned : Double.signed l.sign.isMinus (digitsValue (l.whole ++ l.decimals)) =
      l.sign.factor * digitsValue (l.whole ++ l.decimals) := (l.sign.factor_mul _).symm
  have hpow : (10 : ℚ) ^ l.decimals.length ≠ 0 := by positivity
  rw [Literal.decimal, Spelling.literal, value_ofScaled, hsigned, Text.digitsValue_append,
    Int.neg_sub, zpow_sub₀ (by norm_num), zpow_natCast, Spelling.value]
  push_cast
  field_simp

theorem parse?_eq_some {t : Text} {d : Decimal} : parse? t = some d ↔ ∃ l : Spelling,
    l.IsValid ∧ l.power.natAbs ≤ 100000 ∧ l.text = t ∧ l.literal.decimal = d := by
  constructor
  · intro h
    rw [parse?] at h
    split at h
    next x hliteral =>
      obtain ⟨l, hl, htext, rfl⟩ := literal?_eq_some.1 hliteral
      rw [maxExponent] at h
      split at h
      next => cases h
      next hbound => exact ⟨l, hl, Nat.not_lt.1 hbound, htext, Option.some.inj h⟩
    next => cases h
  · rintro ⟨l, hl, hbound, rfl, rfl⟩
    have hliteral := literal?_eq_some.2 ⟨l, hl, rfl, rfl⟩
    simp only [parse?, hliteral, maxExponent]
    exact if_neg (Nat.not_lt.2 hbound)

def spelling (d : Decimal) : Spelling where
  sign := if d.unscaled < 0 then .minus else .none
  whole := wholeText d
  fraction := if d.scale = 0 then none else some (fractionText d)
  exponent := none

theorem text_spelling (d : Decimal) : d.spelling.text = d.text := by
  have hsign : (spelling d).sign.text = Text.minusIf (d.unscaled < 0) := by
    simp only [spelling, Text.minusIf, decide_eq_true_eq]
    split <;> rfl
  have hpoint : pointText (spelling d).fraction =
      if d.scale = 0 then [] else unit '.' :: fractionText d := by
    simp only [spelling]
    split <;> rfl
  rw [text_eq, Spelling.text, hsign, hpoint]
  exact congrArg (_ ++ ·) (congrArg (_ ++ ·) (List.append_nil _))

theorem decimals_spelling (d : Decimal) : d.spelling.decimals = fractionText d := by
  simp only [Spelling.decimals, spelling]
  split
  next hscale =>
    have hlength := fractionText_length d
    rw [hscale] at hlength
    exact (List.eq_nil_of_length_eq_zero hlength).symm
  next => rfl

theorem spelling_isValid (d : Decimal) : d.spelling.IsValid where
  whole := wholeText_isDigit d
  decimals := by
    rw [decimals_spelling]
    exact fractionText_isDigit d
  hasDigit := .inl (wholeText_ne_nil d)
  exponent := by simp [spelling]

theorem decimal_spelling (d : Decimal) : d.spelling.literal.decimal = d := by
  have hsigned : Double.signed d.spelling.sign.isMinus d.unscaled.natAbs = d.unscaled := by
    by_cases hneg : d.unscaled < 0
    · simp only [spelling, if_pos hneg, Sign.isMinus, Double.signed, if_true]
      omega
    · simp only [spelling, if_neg hneg, Sign.isMinus, Double.signed, Bool.false_eq_true, if_false]
      omega
  have hdigits : digitsValue (d.spelling.whole ++ fractionText d) = d.unscaled.natAbs :=
    digitsValue_whole_fraction d
  have hscale : ¬ ((d.scale : Int) - 0 < 0) := by omega
  rw [Spelling.literal, decimals_spelling, hdigits, fractionText_length, Literal.decimal, hsigned]
  exact if_neg hscale

/-- The reader of literals inverts the text of a decimal, scale included. -/
theorem parse?_text (d : Decimal) : parse? d.text = some d :=
  parse?_eq_some.2 ⟨d.spelling, spelling_isValid d, Nat.zero_le _, text_spelling d,
    decimal_spelling d⟩

/-- A text is read exactly if it is a literal whose exponent is within the bound, and then as the
number that it denotes, with the digits after the point that the exponent leaves. The text of a
decimal is read back as that decimal; it is a literal without an exponent, with a digit before the
point, and with a zero in front only where no other digit stands before the point. -/
theorem decimal_literals :
    (∀ t : Text, (parse? t).isSome ↔
      ∃ l : Spelling, l.IsValid ∧ l.power.natAbs ≤ 100000 ∧ l.text = t) ∧
    (∀ l : Spelling, l.IsValid → l.power.natAbs ≤ 100000 →
      ∃ d, parse? l.text = some d ∧ d.value = l.value ∧
        (d.scale : Int) = max 0 (l.decimals.length - l.power)) ∧
    ∀ d : Decimal, parse? d.text = some d ∧
      ∃ l : Spelling, l.IsValid ∧ l.text = d.text ∧ l.exponent = none ∧ l.whole.IsWhole := by
  refine ⟨fun t => ?_, fun l hl hbound => ?_, fun d => ?_⟩
  · rw [Option.isSome_iff_exists]
    constructor
    · rintro ⟨d, h⟩
      obtain ⟨l, hl, hbound, htext, -⟩ := parse?_eq_some.1 h
      exact ⟨l, hl, hbound, htext⟩
    · rintro ⟨l, hl, hbound, htext⟩
      exact ⟨l.literal.decimal, parse?_eq_some.2 ⟨l, hl, hbound, htext, rfl⟩⟩
  · exact ⟨l.literal.decimal, parse?_eq_some.2 ⟨l, hl, hbound, rfl, rfl⟩, l.value_decimal,
      scale_ofScaled _ _⟩
  · exact ⟨parse?_text d, d.spelling, spelling_isValid d, text_spelling d, rfl,
      wholeText_isWhole d⟩

theorem decimal_literals_of_minus_exponent : ∃ d : Decimal,
    parse? "-12.50e-3" = some d ∧ d.value = -1 / 80 ∧ d.scale = 5 := by
  let l : Spelling := ⟨.minus, "12", some "50", some ⟨unit 'e', .minus, "3"⟩⟩
  have hvalid : l.IsValid := {
    whole := List.all_eq_true.1 (by decide)
    decimals := List.all_eq_true.1 (by decide)
    hasDigit := .inl (by decide)
    exponent := by
      rintro _ ⟨⟩
      exact ⟨.inl rfl, by decide, List.all_eq_true.1 (by decide)⟩ }
  have htext : l.text = "-12.50e-3" := by decide
  have hwhole : digitsValue l.whole = 12 := by decide
  have hdecimals : digitsValue l.decimals = 50 := by decide
  have hlength : l.decimals.length = 2 := by decide
  have hpower : l.power = -3 := by decide
  obtain ⟨d, hparse, hvalue, hscale⟩ := decimal_literals.2.1 l hvalid (by decide)
  rw [htext] at hparse
  rw [hlength, hpower] at hscale
  refine ⟨d, hparse, ?_, by omega⟩
  rw [hvalue, Spelling.value, hwhole, hdecimals, hlength, hpower]
  norm_num [l, Sign.factor]

end Datum.Decimal
