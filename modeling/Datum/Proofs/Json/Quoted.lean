import Datum.Json.Quoted
import Datum.Proofs.Text.Utf8
import Datum.Proofs.Uuid

/-!
# Quoted text

Reading a quoted text gives back the text, whatever its units, and quoting leaves no surrogate that
stands alone.
-/

set_option autoImplicit false

namespace Datum

namespace Json

open Text (unit)

theorem shortEscape?_spec {u letter : UInt16} (h : shortEscape? u = some letter) :
    letter ≠ unit 'u' ∧ unescape? letter = some u ∧ Text.isSurrogate letter = false ∧
      Text.isSurrogate u = false := by
  unfold shortEscape? at h
  split at h
  next hu =>
    cases h
    rcases (by simpa using hu : u = unit '"' ∨ u = unit '\\') with rfl | rfl <;> decide
  repeat' split at h
  all_goals cases h
  all_goals
    subst_vars
    decide

theorem shortEscape?_none {u : UInt16} (h : shortEscape? u = none) :
    u ≠ unit '"' ∧ u ≠ unit '\\' := by
  rw [← not_or]
  intro hu
  rw [shortEscape?, if_pos (by simpa using hu)] at h
  cases h

theorem hexUnit?_digits (u : UInt16) :
    hexUnit? (Text.Hex.digit (u.toNat / 0x1000)) (Text.Hex.digit (u.toNat / 0x100 % 16))
      (Text.Hex.digit (u.toNat / 0x10 % 16)) (Text.Hex.digit (u.toNat % 16)) = some u := by
  have hlt := u.toNat_lt
  have hvalue : ((u.toNat / 0x1000 * 16 + u.toNat / 0x100 % 16) * 16 + u.toNat / 0x10 % 16) * 16
      + u.toNat % 16 = u.toNat := by omega
  simp only [hexUnit?, Text.Hex.value?_digit (show u.toNat / 0x1000 < 16 by omega),
    Text.Hex.value?_digit (Nat.mod_lt _ (show 0 < 16 by decide)), Option.bind_eq_bind,
    Option.bind_some, hvalue]
  simp

theorem digit_isSurrogate {n : Nat} (h : n < 16) : Text.isSurrogate (Text.Hex.digit n) = false := by
  revert n
  decide

theorem readQuoted?_unit {u : UInt16} (hescape : shortEscape? u = none) (hcontrol : 0x20 ≤ u.toNat)
    (s : Text) : readQuoted? (u :: s) = (readQuoted? s).map fun p => (u :: p.1, p.2) := by
  obtain ⟨hquote, hslash⟩ := shortEscape?_none hescape
  have hvisible : ¬u.toNat < 0x20 := by omega
  rw [readQuoted?.eq_def]
  simp only [if_neg hquote, if_neg hslash, if_neg hvisible]
  cases readQuoted? s <;> rfl

theorem readQuoted?_quoteUnit (u : UInt16) (s : Text) :
    readQuoted? (quoteUnit u ++ s) = (readQuoted? s).map fun p => (u :: p.1, p.2) := by
  have hslash : unit '\\' ≠ unit '"' := by decide
  unfold quoteUnit
  split
  next letter h =>
    obtain ⟨hletter, hunescape, -⟩ := shortEscape?_spec h
    simp only [List.cons_append, List.nil_append]
    rw [readQuoted?.eq_def]
    simp only [if_neg hslash, if_true, if_neg hletter, hunescape]
    cases readQuoted? s <;> rfl
  next h =>
    split
    · simp only [hexEscape, List.map_cons, List.map_nil, List.cons_append, List.nil_append]
      rw [readQuoted?.eq_def]
      simp only [if_neg hslash, if_true, hexUnit?_digits]
      cases readQuoted? s <;> rfl
    next hplain =>
      simp only [Bool.or_eq_true, decide_eq_true_eq, not_or] at hplain
      exact readQuoted?_unit h (by omega) s

theorem quoteUnit_isSurrogate (u : UInt16) :
    ∀ v ∈ quoteUnit u, Text.isSurrogate v = false := by
  have hslash : Text.isSurrogate (unit '\\') = false := by decide
  have hu : Text.isSurrogate (unit 'u') = false := by decide
  unfold quoteUnit
  split
  next letter h => simp [hslash, (shortEscape?_spec h).2.2.1]
  next =>
    split
    · have hlt := u.toNat_lt
      simp only [hexEscape, List.map_cons, List.map_nil, List.cons_append, List.nil_append,
        List.forall_mem_cons, List.not_mem_nil, false_implies, implies_true, and_true]
      exact ⟨hslash, hu, digit_isSurrogate (by omega), digit_isSurrogate (by omega),
        digit_isSurrogate (by omega), digit_isSurrogate (by omega)⟩
    next hplain =>
      simp only [Bool.or_eq_true, not_or, Bool.not_eq_true] at hplain
      simpa using hplain.2

theorem shortEscape?_of_isSurrogate {u : UInt16} (h : Text.isSurrogate u = true) :
    shortEscape? u = none ∧ 0x20 ≤ u.toNat := by
  constructor
  · cases hu : shortEscape? u with
    | none => rfl
    | some letter =>
      rw [(shortEscape?_spec hu).2.2.2] at h
      cases h
  · simp only [Text.isSurrogate, Bool.and_eq_true, decide_eq_true_eq] at h
    omega

theorem readQuoted?_quoteUnits (t rest : Text) :
    readQuoted? (quoteUnits t ++ unit '"' :: rest) = some (t, rest) := by
  have hend : readQuoted? (unit '"' :: rest) = some ([], rest) := by
    rw [readQuoted?.eq_def]
    simp
  induction t using quoteUnits.induct with
  | case1 => exact hend
  | case2 u =>
    rw [quoteUnits, readQuoted?_quoteUnit, hend]
    rfl
  | case3 u v t h ih =>
    have hpair := h
    rw [Bool.and_eq_true] at hpair
    obtain ⟨hescape, hvisible⟩ := shortEscape?_of_isSurrogate (Text.isSurrogate_of_high hpair.1)
    obtain ⟨hescape', hvisible'⟩ := shortEscape?_of_isSurrogate (Text.isSurrogate_of_low hpair.2)
    rw [quoteUnits, if_pos h, List.cons_append, List.cons_append,
      readQuoted?_unit hescape hvisible, readQuoted?_unit hescape' hvisible', ih]
    rfl
  | case4 u v t h ih =>
    rw [quoteUnits, if_neg h, List.append_assoc, readQuoted?_quoteUnit, ih]
    rfl

theorem quoteUnits_isWellFormed (t rest : Text) :
    Text.isWellFormed (quoteUnits t ++ rest) = Text.isWellFormed rest := by
  induction t using quoteUnits.induct with
  | case1 => rfl
  | case2 u => exact Text.isWellFormed_append (quoteUnit_isSurrogate u) rest
  | case3 u v t h ih =>
    simp only [quoteUnits, if_pos h]
    rw [Bool.and_eq_true] at h
    rw [List.cons_append, List.cons_append, Text.isWellFormed_pair h.1 h.2, ih]
  | case4 u v t h ih =>
    rw [quoteUnits, if_neg h, List.append_assoc,
      Text.isWellFormed_append (quoteUnit_isSurrogate u), ih]

theorem quote_isWellFormed (t : Text) : (quote t).isWellFormed = true := by
  have hquote : Text.isSurrogate (unit '"') = false := by decide
  rw [quote, List.append_assoc, List.singleton_append, Text.isWellFormed_cons hquote,
    quoteUnits_isWellFormed, Text.isWellFormed_cons hquote]
  rfl

end Json

end Datum
