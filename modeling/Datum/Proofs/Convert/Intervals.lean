import Datum.Proofs.Convert.Kind
import Datum.Proofs.Interval.Length
import Datum.Proofs.Value.Make

/-!
# Conversion between intervals

Under another qualifier of its family an interval keeps its length, cut toward zero to whole units
of the last field. It comes back from a qualifier whose last field is no coarser.
-/

set_option autoImplicit false

namespace Datum

open IntervalFields (maxLeading)

variable {p q : Qualifier} {f : IntervalFields} {n : Int}

namespace Value

theorem ofAbsolute_of_lt (h : maxLeading < n.natAbs / q.leadingUnit) : ofAbsolute q n =
    fail (.numericOverflow
      ((if n < 0 then ("-" : Text) else []) ++ Text.ofInt (n.natAbs / q.leadingUnit)) []) := by
  rw [ofAbsolute, IntervalFields.ofAbsolute_eq, ofFields, if_pos h]
  simp only [decide_eq_true_eq]

theorem ofAbsolute_of_le (h : n.natAbs / q.leadingUnit ≤ maxLeading) :
    ofAbsolute q n = .ok (.interval q (IntervalFields.ofAbsolute q n).unsignedZero) := by
  have hrange := IntervalFields.violation?_ofAbsolute.2 h
  have hleading := (IntervalFields.violation?_eq_none.1 hrange).2.1
  rw [ofAbsolute, ofFields, if_neg (Int.not_lt.2 hleading), hrange]

theorem ofAbsolute_eq_ok {w : Value} (h : ofAbsolute q n = .ok w) : ∃ g, w = .interval q g ∧
    g.IsValid q ∧ g.toAbsolute q = (IntervalFields.ofAbsolute q n).toAbsolute q := by
  rcases Int.lt_or_le maxLeading (n.natAbs / q.leadingUnit) with hlong | hshort
  · rw [ofAbsolute_of_lt hlong] at h
    cases h
  · rw [ofAbsolute_of_le hshort, Except.ok.injEq] at h
    exact ⟨_, h.symm, IntervalFields.isValid_unsignedZero
      (IntervalFields.violation?_ofAbsolute.2 hshort), IntervalFields.toAbsolute_unsignedZero q _⟩

theorem ofAbsolute_toAbsolute (h : f.IsValid q) :
    ofAbsolute q (f.toAbsolute q) = .ok (.interval q f) := by
  rw [ofAbsolute, h.ofAbsolute_toAbsolute, ofFields_of_isValid h]

end Value

variable {c : ConvertContext}

theorem convert_interval (hc : c.extension = none) (hf : f.IsValid p) (q : Qualifier) :
    convert (.interval p f) (.interval q) c = Convert.intervalToInterval p f q := by
  by_cases hpq : p = q
  · subst hpq
    rw [Convert.intervalToInterval, if_pos rfl, Value.ofAbsolute_toAbsolute hf]
    exact convert_self hc
  · have hkind : (Value.interval p f).kind ≠ .interval q := fun h => hpq (Kind.interval.inj h)
    exact convert_eq_byRule rfl hkind c

theorem convert_interval_family (hc : c.extension = none) (hf : f.IsValid p)
    (hfamily : p.isYearMonth = q.isYearMonth) :
    convert (.interval p f) (.interval q) c = Value.ofAbsolute q (f.toAbsolute p) := by
  rw [convert_interval hc hf, Convert.intervalToInterval, if_pos hfamily]

theorem convert_interval_back {w : Value} (hc : c.extension = none) (hf : f.IsValid p)
    (hfamily : p.isYearMonth = q.isYearMonth) (hfiner : q.finestUnit ≤ p.finestUnit)
    (h : convert (.interval p f) (.interval q) c = .ok w) :
    convert w (.interval p) c = .ok (.interval p f) := by
  have hexact : q.finestUnit ∣ f.toAbsolute p := Int.dvd_trans
    (Qualifier.finestUnit_dvd hfamily hfiner) (IntervalFields.finestUnit_dvd_toAbsolute hf.inRange)
  rw [convert_interval_family hc hf hfamily] at h
  obtain ⟨g, rfl, hvalid, hlength⟩ := Value.ofAbsolute_eq_ok h
  rw [convert_interval_family hc hvalid hfamily.symm, hlength,
    IntervalFields.toAbsolute_ofAbsolute_of_dvd hexact, Value.ofAbsolute_toAbsolute hf]

/-- An interval converts to another of its family with the length cut toward zero to whole units of
the last field, unless the leading field gets too long. Fields in range come back from their length,
but for a minus sign before zero, which no interval has. -/
theorem interval_conversion (hc : c.extension = none) (hf : f.IsValid p) (q : Qualifier) :
    let n := f.toAbsolute p
    let converted := convert (.interval p f) (.interval q) c
    (p.isYearMonth ≠ q.isYearMonth →
      converted = fail (.dataConversion (.interval p) (.interval q) [])) ∧
    (p.isYearMonth = q.isYearMonth →
      (maxLeading < n.natAbs / q.leadingUnit → converted = fail (.numericOverflow
        ((if n < 0 then ("-" : Text) else []) ++ Text.ofInt (n.natAbs / q.leadingUnit)) [])) ∧
      (n.natAbs / q.leadingUnit ≤ maxLeading → ∃ g, converted = .ok (.interval q g) ∧
        g.IsValid q ∧ g.toAbsolute q = n.sign * (n.natAbs / q.finestUnit * q.finestUnit)) ∧
      (q.finestUnit ≤ p.finestUnit → ∀ w, converted = .ok w →
        convert w (.interval p) c = .ok (.interval p f))) ∧
    IntervalFields.ofAbsolute p n = f ∧
    ∀ g : IntervalFields, g.violation? p = none →
      IntervalFields.ofAbsolute p (g.toAbsolute p) = g.unsignedZero := by
  intro n converted
  refine ⟨fun hfamily => ?_, fun hfamily => ⟨fun hlong => ?_, fun hshort => ?_, ?_⟩,
    hf.ofAbsolute_toAbsolute, fun g => IntervalFields.ofAbsolute_toAbsolute⟩
  · exact (convert_interval hc hf q).trans (if_neg hfamily)
  · exact (convert_interval_family hc hf hfamily).trans (Value.ofAbsolute_of_lt hlong)
  · refine ⟨_, (convert_interval_family hc hf hfamily).trans (Value.ofAbsolute_of_le hshort),
      IntervalFields.isValid_unsignedZero (IntervalFields.violation?_ofAbsolute.2 hshort), ?_⟩
    rw [IntervalFields.toAbsolute_unsignedZero, IntervalFields.toAbsolute_ofAbsolute]
  · intro hfiner w hw
    exact convert_interval_back hc hf hfamily hfiner hw

theorem interval_conversion_of_seconds : ∃ g : IntervalFields,
    let c := ConvertContext.ofSession (.system 0 0)
    let v := Value.interval .dayToMinute ⟨true, 1, 90⟩
    convert v (.interval .second) c = .ok (.interval .second g) ∧
      g.toAbsolute .second = -91800000000000 ∧
      convert (.interval .second g) (.interval .dayToMinute) c = .ok v := by
  have hf : IntervalFields.IsValid .dayToMinute ⟨true, 1, 90⟩ := ⟨rfl, rfl⟩
  obtain ⟨-, hfamily, -⟩ :=
    interval_conversion (c := .ofSession (.system 0 0)) rfl hf .second
  obtain ⟨-, hconverted, hback⟩ := hfamily rfl
  obtain ⟨g, hg, -, hlength⟩ := hconverted (by decide)
  exact ⟨g, hg, hlength, hback (by decide) _ hg⟩

end Datum
