import Datum.Json.Document
import Datum.Proofs.Json.Quoted
import Datum.Proofs.Number.DecimalText

/-!
# JSON literals

The texts that are stored as JSON without a check are documents: quoted texts, the words for truth
values, and numbers, which are a whole part without a needless zero in front, a fraction and an
exponent (`isLiteral_number`). Integers and decimals are written so.
-/

set_option autoImplicit false

namespace Datum

open Text (unit isDigit)

namespace Json

theorem parse?_of_token {u : UInt16} {rest : Text} {token : Token} {v : Document}
    (hspace : isSpace u = false) (htoken : token? u rest = some (token, []))
    (hvalue : beginValue? token [] = some (.after v, [])) : parse? (u :: rest) = some v := by
  have htokens : tokens? (u :: rest) = some [token] := by
    simp [tokens?, tokensWithin?, hspace, htoken]
  simp [parse?, htokens, read?, step?, hvalue]

theorem isValid_of_parse? {t : Text} {v : Document} (h : parse? t = some v) : isValid t = true := by
  rw [isValid, h]
  rfl

theorem parse?_quote (t : Text) : parse? (quote t) = some (.text t) := by
  have hpunctuation : punctuation? (unit '"') = none := by decide
  have hread : readQuoted? (quoteUnits t ++ [unit '"']) = some (t, []) :=
    readQuoted?_quoteUnits t []
  have htoken : token? (unit '"') (quoteUnits t ++ [unit '"']) = some (.text t, []) := by
    simp [token?, hpunctuation, hread]
  exact parse?_of_token (v := .text t) (by decide) htoken rfl

def beginsNumber (u : UInt16) : Bool := u == unit '-' || isDigit u

theorem beginsNumber_ne {u c : UInt16} (h : beginsNumber u = true) (hc : beginsNumber c = false) :
    u ≠ c := by
  rintro rfl
  rw [hc] at h
  cases h

theorem punctuation?_number {u : UInt16} (h : beginsNumber u = true) : punctuation? u = none := by
  have hne {c : UInt16} (hc : beginsNumber c = false) : ¬u = c := beginsNumber_ne h hc
  rw [punctuation?, if_neg (hne (by decide)), if_neg (hne (by decide)), if_neg (hne (by decide)),
    if_neg (hne (by decide)), if_neg (hne (by decide)), if_neg (hne (by decide))]

theorem word?_number {u : UInt16} (h : beginsNumber u = true) (rest : Text) :
    word? (u :: rest) = none := by
  have hstrip {c : UInt16} (hc : beginsNumber c = false) (word : Text) :
      Text.stripStart? (c :: word) (u :: rest) = none := by
    rw [Text.stripStart?, if_neg (beginsNumber_ne h hc).symm]
  have hnull : Text.stripStart? "null" (u :: rest) = none :=
    hstrip (c := unit 'n') (by decide) "ull"
  have htrue : Text.stripStart? "true" (u :: rest) = none :=
    hstrip (c := unit 't') (by decide) "rue"
  have hfalse : Text.stripStart? "false" (u :: rest) = none :=
    hstrip (c := unit 'f') (by decide) "alse"
  rw [word?, hnull, htrue, hfalse]

theorem isValid_of_readNumber? {u : UInt16} {rest : Text} {x : Double}
    (h : beginsNumber u = true) (hread : readNumber? (u :: rest) = some (x, [])) :
    isValid (u :: rest) = true := by
  have hne {c : UInt16} (hc : beginsNumber c = false) : u ≠ c := beginsNumber_ne h hc
  have hspace : isSpace u = false := by
    simp [isSpace, hne (c := 0x20) (by decide), hne (c := 9) (by decide),
      hne (c := 10) (by decide), hne (c := 13) (by decide)]
  have htoken : token? u rest = some (.number x, []) := by
    simp [token?, punctuation?_number h, hne (c := unit '"') (by decide), word?_number h, hread]
  exact isValid_of_parse? (parse?_of_token hspace htoken rfl)

theorem wholeDigits?_append {s t : Text} (hs : s.IsWhole) (ht : Text.NoDigitNext t) :
    wholeDigits? (s ++ t) = some (s, t) := by
  rcases hs with rfl | ⟨hdigits, u, hu, hne⟩
  · simp [wholeDigits?]
  · cases s with
    | nil => cases hu
    | cons v s =>
      cases hu
      have hspan := Text.spanDigits_append hdigits ht
      rw [List.cons_append] at hspan ⊢
      simp [wholeDigits?, hne, hspan]

def IsFraction (t : Text) : Prop :=
  t = [] ∨ ∃ digits, digits ≠ [] ∧ (∀ u ∈ digits, isDigit u = true) ∧ t = unit '.' :: digits

def IsExponent (t : Text) : Prop :=
  t = [] ∨ ∃ (s : Sign) (digits : Text), digits ≠ [] ∧ (∀ u ∈ digits, isDigit u = true) ∧
    t = unit 'e' :: (s.text ++ digits)

section

variable {whole fraction exponent : Text}

theorem IsExponent.noDigitNext (h : IsExponent exponent) : Text.NoDigitNext exponent := by
  rcases h with rfl | ⟨s, digits, -, -, rfl⟩
  · exact Text.noDigitNext_nil
  · exact Text.noDigitNext_cons (by decide)

theorem noDigitNext_append (hfraction : IsFraction fraction) (hexponent : IsExponent exponent) :
    Text.NoDigitNext (fraction ++ exponent) := by
  rcases hfraction with rfl | ⟨digits, -, -, rfl⟩
  · exact hexponent.noDigitNext
  · exact Text.noDigitNext_cons (by decide)

theorem fraction?_append (hfraction : IsFraction fraction) (hexponent : IsExponent exponent) :
    ∃ digits, fraction? (fraction ++ exponent) = some (digits, exponent) := by
  rcases hfraction with rfl | ⟨digits, hne, hdigits, rfl⟩
  · refine ⟨[], ?_⟩
    rcases hexponent with rfl | ⟨s, digits, -, -, rfl⟩
    · rfl
    · rw [List.nil_append, fraction?, if_neg (by decide)]
  · refine ⟨digits, ?_⟩
    have hspan := Text.spanDigits_append hdigits hexponent.noDigitNext
    simp [fraction?, hspan, hne]

theorem exponent?_eq (h : IsExponent exponent) : ∃ n, exponent? exponent = some (n, []) := by
  rcases h with rfl | ⟨s, digits, hne, hdigits, rfl⟩
  · exact ⟨0, rfl⟩
  · refine ⟨Double.signed s.isMinus (Text.digitsValue digits), ?_⟩
    have hsign := takeSign_text s (Text.head_ne_sign hdigits hne [])
    rw [List.append_nil] at hsign
    simp [exponent?, hsign, Text.spanDigits_self hdigits, hne]

theorem readNumber?_append (negative : Bool) (hwhole : whole.IsWhole)
    (hfraction : IsFraction fraction) (hexponent : IsExponent exponent) :
    ∃ x, readNumber? (Text.minusIf negative ++ (whole ++ (fraction ++ exponent)))
      = some (x, []) := by
  have hread := wholeDigits?_append hwhole (noDigitNext_append hfraction hexponent)
  obtain ⟨digits, hdigits⟩ := fraction?_append hfraction hexponent
  obtain ⟨n, hn⟩ := exponent?_eq hexponent
  obtain ⟨u, s, rfl, hu⟩ := hwhole.exists_cons
  have hminus : u ≠ unit '-' := by
    rintro rfl
    exact absurd hu (by decide)
  rw [List.cons_append] at hread ⊢
  cases negative with
  | false => simp [readNumber?, Text.minusIf, hminus, hread, hdigits, hn]
  | true => simp [readNumber?, Text.minusIf, hread, hdigits, hn]

theorem isValid_number (negative : Bool) (hwhole : whole.IsWhole)
    (hfraction : IsFraction fraction) (hexponent : IsExponent exponent) :
    isValid (Text.minusIf negative ++ (whole ++ (fraction ++ exponent))) = true := by
  obtain ⟨x, hread⟩ := readNumber?_append negative hwhole hfraction hexponent
  obtain ⟨u, s, rfl, hu⟩ := hwhole.exists_cons
  cases negative with
  | false => exact isValid_of_readNumber? (by simp [beginsNumber, hu]) hread
  | true => exact isValid_of_readNumber? (by decide) hread

end

/-- A document that its UTF-8 does not change. -/
structure IsLiteral (t : Text) : Prop where
  isValid : isValid t = true
  wellFormed : t.isWellFormed = true
  noMark : t.head? ≠ some 0xFEFF

theorem IsLiteral.isValid_decode {t : Text} (h : IsLiteral t) :
    Json.isValid (Text.Utf8.decode (Text.Utf8.encode t)) = true := by
  rw [Text.Utf8.decode_encode h.wellFormed h.noMark]
  exact h.isValid

theorem isLiteral_of_ascii {t : Text} (hvalid : isValid t = true) (h : t.IsAscii) : IsLiteral t :=
  ⟨hvalid, h.isWellFormed, h.head?_ne⟩

theorem isAscii_of_isDigit {t : Text} (h : ∀ u ∈ t, isDigit u = true) : t.IsAscii := by
  intro u hu
  have hdigit := h u hu
  simp only [isDigit, Bool.and_eq_true, decide_eq_true_eq] at hdigit
  omega

theorem isAscii_minusIf (negative : Bool) : (Text.minusIf negative).IsAscii := by
  intro u hu
  rw [Text.eq_of_mem_minusIf hu]
  decide

theorem isAscii_sign (s : Sign) : s.text.IsAscii := by
  cases s <;> decide

theorem IsFraction.isAscii {t : Text} (h : IsFraction t) : t.IsAscii := by
  rcases h with rfl | ⟨digits, -, hdigits, rfl⟩
  · decide
  · exact List.forall_mem_cons.2 ⟨by decide, isAscii_of_isDigit hdigits⟩

theorem IsExponent.isAscii {t : Text} (h : IsExponent t) : t.IsAscii := by
  rcases h with rfl | ⟨s, digits, -, hdigits, rfl⟩
  · decide
  · exact List.forall_mem_cons.2
      ⟨by decide, (isAscii_sign s).append (isAscii_of_isDigit hdigits)⟩

theorem isLiteral_quote (t : Text) : IsLiteral (quote t) :=
  ⟨isValid_of_parse? (parse?_quote t), quote_isWellFormed t, by simp [quote]; decide⟩

theorem isLiteral_bool (b : Bool) : IsLiteral (if b then "true" else "false") := by
  cases b with
  | false => exact isLiteral_of_ascii rfl (by decide)
  | true => exact isLiteral_of_ascii rfl (by decide)

theorem isLiteral_number (negative : Bool) {whole fraction exponent : Text}
    (hwhole : whole.IsWhole) (hfraction : IsFraction fraction) (hexponent : IsExponent exponent) :
    IsLiteral (Text.minusIf negative ++ (whole ++ (fraction ++ exponent))) := by
  refine isLiteral_of_ascii (isValid_number negative hwhole hfraction hexponent) ?_
  refine (isAscii_minusIf _).append ((isAscii_of_isDigit hwhole.all_isDigit).append ?_)
  exact hfraction.isAscii.append hexponent.isAscii

theorem isLiteral_ofInt (n : Int) : IsLiteral (Text.ofInt n) := by
  have h := isLiteral_number (n < 0) (Text.ofNat_isWhole n.natAbs) (.inl rfl) (.inl rfl)
  rw [List.append_nil, List.append_nil] at h
  rwa [Text.ofInt_eq]

theorem isFraction_decimal (d : Decimal) :
    IsFraction (if d.scale = 0 then [] else unit '.' :: d.fractionText) := by
  split
  · exact .inl rfl
  next hscale =>
    refine .inr ⟨d.fractionText, ?_, d.fractionText_isDigit, rfl⟩
    intro hnil
    have hlength := d.fractionText_length
    rw [hnil, List.length_nil] at hlength
    exact hscale hlength.symm

theorem isLiteral_decimal (d : Decimal) : IsLiteral d.text := by
  have h := isLiteral_number (d.unscaled < 0) d.wholeText_isWhole (isFraction_decimal d) (.inl rfl)
  rw [List.append_nil] at h
  rwa [Decimal.text_eq]

end Json

end Datum
