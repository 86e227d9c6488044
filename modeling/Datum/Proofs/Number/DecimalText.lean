import Datum.Number.Decimal
import Datum.Proofs.Text.Blanks
import Datum.Proofs.Text.Digits

/-!
# Decimals as text

The text of a decimal has a digit before the point and as many digits after it as the scale says. No
zero stands in front that is not needed.
-/

set_option autoImplicit false

namespace Datum.Decimal

open Text (unit digitsValue)

def digitText (d : Decimal) : Text := Text.padZeros (d.scale + 1) (Text.ofNat d.unscaled.natAbs)

theorem digitText_isDigit (d : Decimal) : ∀ u ∈ digitText d, Text.isDigit u = true :=
  Text.padZeros_isDigit (Text.ofNat_isDigit _) _

theorem scale_lt_digitText (d : Decimal) : d.scale < (digitText d).length := by
  rw [digitText, Text.length_padZeros]
  omega

def wholeText (d : Decimal) : Text := (digitText d).take ((digitText d).length - d.scale)

def fractionText (d : Decimal) : Text := (digitText d).drop ((digitText d).length - d.scale)

theorem wholeText_isDigit (d : Decimal) : ∀ u ∈ wholeText d, Text.isDigit u = true :=
  fun u hu => digitText_isDigit d u (List.mem_of_mem_take hu)

theorem fractionText_isDigit (d : Decimal) : ∀ u ∈ fractionText d, Text.isDigit u = true :=
  fun u hu => digitText_isDigit d u (List.mem_of_mem_drop hu)

theorem wholeText_ne_nil (d : Decimal) : wholeText d ≠ [] := by
  have hlt := scale_lt_digitText d
  have hlength : (wholeText d).length = (digitText d).length - d.scale := by
    rw [wholeText, List.length_take]
    omega
  intro hnil
  rw [hnil, List.length_nil] at hlength
  omega

theorem fractionText_length (d : Decimal) : (fractionText d).length = d.scale := by
  have hlt := scale_lt_digitText d
  rw [fractionText, List.length_drop]
  omega

theorem digitsValue_whole_fraction (d : Decimal) :
    digitsValue (wholeText d ++ fractionText d) = d.unscaled.natAbs := by
  rw [wholeText, fractionText, List.take_append_drop, digitText, Text.digitsValue_padZeros,
    Text.digitsValue_ofNat]

theorem wholeText_isWhole (d : Decimal) : Text.IsWhole (wholeText d) := by
  generalize hn : Text.ofNat d.unscaled.natAbs = digits
  by_cases hshort : digits.length ≤ d.scale
  · obtain ⟨k, hk⟩ : ∃ k, d.scale + 1 - digits.length = k + 1 := ⟨d.scale - digits.length, by omega⟩
    have hdigits : digitText d = unit '0' :: (List.replicate k (unit '0') ++ digits) := by
      rw [digitText, hn, Text.padZeros, hk, List.replicate_succ, List.cons_append]
    have hlength : (digitText d).length - d.scale = 1 := by
      rw [digitText, hn, Text.length_padZeros]
      omega
    left
    rw [wholeText, hlength, hdigits, List.take_succ_cons, List.take_zero]
  · have hdigits : digitText d = digits := by
      rw [digitText, hn]
      exact Text.padZeros_of_le (by omega)
    rw [wholeText, hdigits, ← hn]
    refine (Text.ofNat_isWhole _).take ?_
    rw [hn]
    omega

theorem text_eq (d : Decimal) : d.text = Text.minusIf (d.unscaled < 0)
    ++ (wholeText d ++ if d.scale = 0 then [] else unit '.' :: fractionText d) := by
  have hsign : (if d.unscaled < 0 then ("-" : Text) else []) = Text.minusIf (d.unscaled < 0) := by
    simp only [Text.minusIf, decide_eq_true_eq]
    rfl
  by_cases hscale : d.scale = 0
  · have hlength : (Text.ofNat d.unscaled.natAbs).length ≠ 0 :=
      fun h => Text.ofNat_ne_nil _ (List.eq_nil_of_length_eq_zero h)
    have hpad : digitText d = Text.ofNat d.unscaled.natAbs := Text.padZeros_of_le (by omega)
    have hwhole : wholeText d = Text.ofNat d.unscaled.natAbs := by
      rw [wholeText, hscale, Nat.sub_zero, List.take_length, hpad]
    simp only [Decimal.text, if_pos hscale, hwhole, hsign, List.append_nil]
  · simp only [Decimal.text, if_neg hscale, hsign, List.append_assoc, List.singleton_append]
    rfl

theorem text_isBlank (d : Decimal) : ∀ u ∈ d.text, Text.isBlank u = false := by
  have hdigits {t : Text} (ht : ∀ u ∈ t, Text.isDigit u = true) : ∀ u ∈ t, Text.isBlank u = false :=
    fun u hu => Text.isBlank_of_isDigit (ht u hu)
  have hsign : ∀ u ∈ Text.minusIf (d.unscaled < 0), Text.isBlank u = false := by
    intro u hu
    rw [Text.eq_of_mem_minusIf hu]
    decide
  have hpoint : Text.isBlank (unit '.') = false := by decide
  rw [text_eq]
  simp only [List.forall_mem_append]
  refine ⟨hsign, hdigits (wholeText_isDigit d), ?_⟩
  split
  · simp
  · exact List.forall_mem_cons.2 ⟨hpoint, hdigits (fractionText_isDigit d)⟩

end Datum.Decimal
