import Datum.Proofs.Convert.Intervals
import Datum.Proofs.Convert.WellFormed
import Datum.Proofs.Interval.FullLiteral

/-!
# Intervals from text

Whatever is read from a text has valid fields, so that a string converts to an interval of the
target kind or is no interval literal. A full literal is read under its own qualifier and then
converted as an interval is, and the signs before and behind its quote multiply.
-/

set_option autoImplicit false

namespace Datum

open Text (IsBlanks)

variable {k q : Qualifier} {t : Text} {f : IntervalFields}

namespace IntervalFields

theorem parseBody?_isValid (h : parseBody? q t = some f) : f.IsValid q := by
  simp only [parseBody?, Option.bind_eq_bind, Option.bind_eq_some_iff] at h
  obtain ⟨m, -, h⟩ := h
  split at h
  next => cases h
  next hrange =>
    cases h
    exact isValid_unsignedZero (Option.not_isSome_iff_eq_none.1 hrange)

theorem turned_isValid (h : f.IsValid q) (minus : Bool) : (f.turned minus).IsValid q := by
  unfold turned
  split
  next hturn =>
    simp only [Bool.and_eq_true, Bool.not_eq_true'] at hturn
    exact ⟨h.inRange, if_neg (Bool.eq_false_iff.1 hturn.2)⟩
  next => exact h

theorem parse?_isValid (h : parse? k t = some (q, f)) : f.IsValid q := by
  unfold parse? at h
  split at h
  next p hp =>
    simp only [Option.bind_eq_bind, Option.bind_eq_some_iff, Option.pure_def, Option.some.injEq,
      Prod.mk.injEq] at h
    obtain ⟨named, -, g, hg, rfl, rfl⟩ := h
    exact turned_isValid (parseBody?_isValid hg) p.negative
  next =>
    simp only [Option.map_eq_some_iff, Prod.mk.injEq] at h
    obtain ⟨g, hg, rfl, rfl⟩ := h
    exact parseBody?_isValid hg

theorem parse?_signs (k : Qualifier) {l : FullLiteral} {s : Sign} {b u : Text} {g : IntervalFields}
    (hb : IsBlanks b) (hu : Unsigned u) (hbody : l.body = b ++ (s.text ++ u))
    (h : parseBody? l.qualifier u = some g) :
    ∃ f, parse? k l.text = some (l.qualifier, f) ∧
      f.toAbsolute l.qualifier = l.sign.factor * (s.factor * g.toAbsolute l.qualifier) := by
  refine ⟨(g.turned s.isMinus).turned l.sign.isMinus, ?_, ?_⟩
  · rw [l.parse?_text, hbody, parseBody?_signed l.qualifier s hb hu, h]
    rfl
  · rw [toAbsolute_turned, toAbsolute_turned]

end IntervalFields

namespace Convert

open IntervalFields

variable {c : ConvertContext} {s : StringKind}

theorem convert_string_interval : convert (.string s t) (.interval k) c = textToInterval t k :=
  convert_eq_byRule rfl (by simp) c

theorem parsedInterval?_of_parse? (h : parse? k t = some (q, f))
    (hfamily : q.isYearMonth = k.isYearMonth) :
    parsedInterval? t k = (Value.ofAbsolute k (f.toAbsolute q)).toOption := by
  have hf := parse?_isValid h
  simp only [parsedInterval?, h, Option.bind_eq_bind, Option.bind_some,
    Value.ofFields_of_isValid hf]
  split
  next heq =>
    subst heq
    rw [Value.ofAbsolute_toAbsolute hf]
    rfl
  next => rw [intervalToInterval, if_pos hfamily]

theorem textToInterval_eq_ok {w : Value} : textToInterval t k = .ok w ↔
    parsedInterval? t k = some w := by
  unfold textToInterval
  split
  next v hv => simp [hv]
  next hv => simp [hv, fail]

theorem text_interval_or_invalid (s : StringKind) (k : Qualifier) (c : ConvertContext) (t : Text) :
    (∃ f, f.IsValid k ∧ convert (.string s t) (.interval k) c = .ok (.interval k f)) ∨
      convert (.string s t) (.interval k) c = fail (.invalidInterval k t) := by
  rw [convert_string_interval, textToInterval]
  cases h : parsedInterval? t k with
  | none => exact .inr rfl
  | some v =>
    have hwell := parsedInterval?_wellFormed h
    have hkind := parsedInterval?_kind h
    cases v with
    | interval p f =>
      cases hkind
      exact .inl ⟨f, hwell, rfl⟩
    | _ => cases hkind

theorem convert_of_parse? (h : parse? k t = some (k, f)) :
    convert (.string s t) (.interval k) c = .ok (.interval k f) := by
  rw [convert_string_interval, textToInterval_eq_ok, parsedInterval?_of_parse? h rfl,
    Value.ofAbsolute_toAbsolute (parse?_isValid h)]
  rfl

theorem convert_fullLiteral (l : FullLiteral) (hfamily : l.qualifier.isYearMonth = k.isYearMonth)
    {w : Value} (h : convert (.string s l.text) (.interval k) c = .ok w) :
    ∃ f g, parse? k l.text = some (l.qualifier, f) ∧
      convert (.string s l.text) (.interval l.qualifier) c = .ok (.interval l.qualifier f) ∧
      w = .interval k g ∧ g.toAbsolute k = (f.toAbsolute l.qualifier).sign *
        ((f.toAbsolute l.qualifier).natAbs / k.finestUnit * k.finestUnit) := by
  rw [convert_string_interval, textToInterval_eq_ok] at h
  cases hbody : parseBody? l.qualifier l.body with
  | none =>
    have hparse := l.parse?_text k
    rw [hbody] at hparse
    simp [parsedInterval?, hparse] at h
  | some g =>
    have hparse (expected : Qualifier) : parse? expected l.text =
        some (l.qualifier, g.turned l.sign.isMinus) := by
      rw [l.parse?_text, hbody, Option.map_some]
    rw [parsedInterval?_of_parse? (hparse k) hfamily, toOption_eq_some] at h
    obtain ⟨f, rfl, -, hlength⟩ := Value.ofAbsolute_eq_ok h
    rw [toAbsolute_ofAbsolute] at hlength
    exact ⟨_, f, hparse k, convert_of_parse? (hparse l.qualifier), rfl, hlength⟩

/-- A string converts to an interval of the target kind with valid fields or is an invalid literal.
What is read from a text, as a full literal if it is one and as a body otherwise, is taken as it is;
the signs of a full literal multiply, and under another qualifier of its family it has the length
that it denotes, cut toward zero to whole units of the last field. -/
theorem interval_text (s : StringKind) (k : Qualifier) (c : ConvertContext) :
    (∀ t, (∃ f, f.IsValid k ∧ convert (.string s t) (.interval k) c = .ok (.interval k f)) ∨
      convert (.string s t) (.interval k) c = fail (.invalidInterval k t)) ∧
    (∀ t q f, parse? k t = some (q, f) → Value.ofFields q f = .ok (.interval q f) ∧
      (q = k → convert (.string s t) (.interval k) c = .ok (.interval k f))) ∧
    (∀ t, (∀ l : FullLiteral, l.text ≠ t) → parse? k t = (parseBody? k t).map fun f => (k, f)) ∧
    (∀ (l : FullLiteral) (inner : Sign) (b u : Text), IsBlanks b → Unsigned u →
      l.body = b ++ (inner.text ++ u) →
        (parseBody? l.qualifier u = none → parse? k l.text = none) ∧
        ∀ g, parseBody? l.qualifier u = some g → ∃ f, parse? k l.text = some (l.qualifier, f) ∧
          f.toAbsolute l.qualifier =
            l.sign.factor * (inner.factor * g.toAbsolute l.qualifier)) ∧
    ∀ l : FullLiteral, l.qualifier.isYearMonth = k.isYearMonth → ∀ w,
      convert (.string s l.text) (.interval k) c = .ok w →
        ∃ f g, parse? k l.text = some (l.qualifier, f) ∧
          convert (.string s l.text) (.interval l.qualifier) c = .ok (.interval l.qualifier f) ∧
          w = .interval k g ∧ g.toAbsolute k = (f.toAbsolute l.qualifier).sign *
            ((f.toAbsolute l.qualifier).natAbs / k.finestUnit * k.finestUnit) := by
  refine ⟨text_interval_or_invalid s k c, fun t q f h => ⟨?_, fun hq => ?_⟩,
    fun t => parse?_of_no_literal k,
    fun l inner b u hb hu hbody => ⟨fun hnone => ?_, fun g hg => ?_⟩,
    fun l hfamily w h => convert_fullLiteral l hfamily h⟩
  · exact Value.ofFields_of_isValid (parse?_isValid h)
  · subst hq
    exact convert_of_parse? h
  · rw [l.parse?_text, hbody, parseBody?_signed l.qualifier inner hb hu, hnone]
    rfl
  · exact parse?_signs k hb hu hbody hg

/-- Two minus signs make a year and a half, which is a year under the coarser qualifier. -/
theorem interval_text_of_two_signs :
    let c := ConvertContext.ofSession (.system 0 0)
    let t : Text := "interval - '-1-6' Year to MONTH "
    ∃ f g, parse? .year t = some (.yearToMonth, f) ∧ f.toAbsolute .yearToMonth = 18 ∧
      convert (.string .varchar t) (.interval .year) c = .ok (.interval .year g) ∧
      g.toAbsolute .year = 12 := by
  intro c t
  have hspells : Text.Spells ["Year", "to", "MONTH"] ("Year to MONTH" : Text) :=
    .cons (by decide) (by decide) (show IsBlanks " " by decide)
      (.cons (by decide) (by decide) (show IsBlanks " " by decide)
        (.single (by decide)))
  let l : FullLiteral :=
    { before := []
      keyword := "interval"
      afterKeyword := " "
      sign := .minus
      afterSign := " "
      body := "-1-6"
      afterBody := " "
      words := ["Year", "to", "MONTH"]
      name := "Year to MONTH"
      after := " "
      qualifier := .yearToMonth
      keyword_upper := by decide
      body_closed := by decide
      spells := hspells
      named := by decide
      gaps := by decide
      blanks := by decide }
  obtain ⟨-, -, -, hsigns, hlength⟩ := interval_text .varchar .year c
  have hunsigned : Unsigned ("1-6" : Text) := by
    intro u hu
    cases hu
    decide
  obtain ⟨-, hread⟩ := hsigns l .minus [] "1-6" (by decide) hunsigned rfl
  obtain ⟨f, hf, hvalue⟩ := hread ⟨false, 1, 6⟩
    (show parseBody? .yearToMonth "1-6" = some ⟨false, 1, 6⟩ by decide)
  have hmonths : f.toAbsolute .yearToMonth = 18 := hvalue.trans (by rfl)
  have hconvert : convert (.string .varchar t) (.interval .year) c =
      .ok (.interval .year ⟨false, 1, 0⟩) := by rfl
  obtain ⟨f', g, hf', -, hg, hcut⟩ := hlength l rfl _ hconvert
  have hsame : f' = f := congrArg Prod.snd (Option.some.inj (hf'.symm.trans hf))
  rw [show l.qualifier = .yearToMonth from rfl, hsame, hmonths] at hcut
  exact ⟨f, g, hf, hmonths, hg ▸ hconvert, hcut⟩

end Convert

end Datum
