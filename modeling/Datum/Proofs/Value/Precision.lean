import Datum.Proofs.Number.Nearest
import Datum.Proofs.Text.Digits
import Datum.Value.Adjust
import Mathlib.Data.Nat.Find

/-!
# Decimals cut to a precision

A decimal that does not fit into a precision loses fractional digits. Cut without rounding, it keeps
as many as the digits before the point leave room for. Rounded there, it may carry into one digit
too many, and is then refused although fewer fractional digits would fit.
-/

set_option autoImplicit false

namespace Datum

namespace Decimal

def Fits (d : Decimal) (p : Nat) : Prop := max d.precision d.scale ≤ p

instance (d : Decimal) (p : Nat) : Decidable (d.Fits p) := inferInstanceAs (Decidable (_ ≤ p))

/-- The greatest of the smaller scales at which a decimal, rounded, fits into a precision. -/
def IsFinestScale (d : Decimal) (p s : Nat) : Prop :=
  s < d.scale ∧ (d.setScale s .halfUp).Fits p ∧
    ∀ t < d.scale, (d.setScale t .halfUp).Fits p → t ≤ s

def integral (d : Decimal) : Nat := d.precision - d.scale

theorem natAbs_roundQuotient_down (num : Int) (den : Nat) :
    (roundQuotient num den .down).natAbs = num.natAbs / den := Int.natAbs_tdiv num den

theorem natAbs_div_le_roundQuotient (num : Int) (den : Nat) (mode : RoundingMode) :
    num.natAbs / den ≤ (roundQuotient num den mode).natAbs := by
  rw [natAbs_roundQuotient]
  exact Nat.le_add_right _ _

section Scale

variable {d : Decimal} {p s : Nat}

theorem precision_pos : 0 < d.precision := List.length_pos_iff.2 (Text.ofNat_ne_nil _)

theorem precision_le_iff (hp : p ≠ 0) : d.precision ≤ p ↔ d.unscaled.natAbs < 10 ^ p :=
  Text.length_ofNat_le_iff _ hp

theorem fits_down_iff (h : s < d.scale) :
    (d.setScale s .down).Fits p ↔ 1 ≤ p ∧ d.integral + s ≤ p := by
  have hpos := (d.setScale s .down).precision_pos
  rw [Fits, max_le_iff]
  by_cases hp : p = 0
  · omega
  have hcut : (d.setScale s .down).precision ≤ p ↔ d.precision ≤ p + (d.scale - s) := by
    rw [precision_le_iff hp, precision_le_iff (by omega), setScale_of_lt h,
      natAbs_roundQuotient_down, Nat.pow_eq, Nat.div_lt_iff_lt_mul (Nat.pow_pos (by decide)),
      Nat.pow_add]
  have hscale : (d.setScale s .down).scale = s := by rw [setScale_of_lt h]
  rw [hcut, hscale, integral]
  omega

theorem fits_down_of_fits {mode : RoundingMode} (h : s < d.scale)
    (hfits : (d.setScale s mode).Fits p) : (d.setScale s .down).Fits p := by
  have hp : p ≠ 0 := fun hp => by
    have hpos := (d.setScale s mode).precision_pos
    have hle := (max_le_iff.1 hfits).1
    omega
  rw [Fits, max_le_iff, precision_le_iff hp, setScale_of_lt h] at hfits ⊢
  refine ⟨?_, hfits.2⟩
  rw [natAbs_roundQuotient_down]
  exact Nat.lt_of_le_of_lt (natAbs_div_le_roundQuotient _ _ mode) hfits.1

theorem lt_scale_of_not_fits (h : ¬ d.Fits p) (hp : d.integral ≤ p) : p - d.integral < d.scale := by
  rw [Fits, max_le_iff] at h
  unfold integral at hp ⊢
  omega

theorem exists_finestScale (h : s < d.scale) (hfits : (d.setScale s .halfUp).Fits p) :
    ∃ finest, d.IsFinestScale p finest := by
  let fitting := fun s : Nat => s < d.scale ∧ (d.setScale s .halfUp).Fits p
  have hle {t : Nat} (ht : fitting t) : t ≤ Nat.findGreatest fitting d.scale :=
    Nat.le_findGreatest (Nat.le_of_lt ht.1) ht
  obtain ⟨hlt, hfinest⟩ := Nat.findGreatest_spec (P := fitting) (Nat.le_of_lt h) ⟨h, hfits⟩
  exact ⟨_, hlt, hfinest, fun t ht htfits => hle ⟨ht, htfits⟩⟩

end Scale

end Decimal

namespace Value

variable {d : Decimal} {p : Nat}

theorem decimalFits_int (d : Decimal) (p : Nat) : decimalFits d (.int p) = decide (d.Fits p) := by
  simp [decimalFits, Num.atLeast, Decimal.Fits]

/-- Only one scale is tried, the one that leaves no room. -/
theorem toPrecision_of_not_fits (h : ¬ d.Fits p) : toPrecision (.numeric d) (.int p) =
    if d.integral ≤ p ∧ (d.setScale (p - d.integral : Nat) .halfUp).Fits p then
      .ok (.numeric (d.setScale (p - d.integral : Nat) .halfUp))
    else fail (.numericOverflow d.text []) := by
  have hp : (Num.int p).toInt? = some (p : Int) := rfl
  have hintegral : d.precision - d.scale = d.integral := rfl
  simp only [toPrecision, decimalFits_int, decide_eq_true_eq, if_neg h, decimalToPrecision, hp,
    hintegral, Int.ofNat_lt]
  by_cases hroom : d.integral ≤ p
  · rw [if_neg (Nat.not_lt.2 hroom), ← Int.ofNat_sub hroom]
    split
    next hfits =>
      rw [if_pos ⟨hroom, hfits⟩]
      rfl
    next hnot =>
      rw [if_neg fun hboth => hnot hboth.2]
      rfl
  · rw [if_pos (Nat.lt_of_not_le hroom), if_neg fun hboth => hroom hboth.1]
    rfl

theorem toPrecision_of_finestScale {s : Nat} (h : ¬ d.Fits p) (hs : d.IsFinestScale p s) :
    toPrecision (.numeric d) (.int p) =
      if s + 1 < d.scale ∧ (d.setScale (s + 1 : Nat) .down).Fits p then
        fail (.numericOverflow d.text [])
      else .ok (.numeric (d.setScale s .halfUp)) := by
  obtain ⟨hlt, hfits, hfinest⟩ := hs
  obtain ⟨hp, hroom⟩ := (Decimal.fits_down_iff hlt).1 (Decimal.fits_down_of_fits hlt hfits)
  have htried := Decimal.lt_scale_of_not_fits h (Nat.le_of_add_right_le hroom)
  -- the scale that is tried is the last at which a cut fits, so that no finer one is left out
  rw [toPrecision_of_not_fits h]
  split
  next htry =>
    have hle := hfinest _ htried htry.2
    have heq : s = p - d.integral := by omega
    rw [if_neg, heq]
    rintro ⟨hnext, hcut⟩
    have hbeyond := (Decimal.fits_down_iff hnext).1 hcut
    omega
  next hrefused =>
    have hne : s ≠ p - d.integral := fun heq => hrefused ⟨by omega, heq ▸ hfits⟩
    have hnext : s + 1 < d.scale := by omega
    rw [if_pos ⟨hnext, (Decimal.fits_down_iff hnext).2 (by omega)⟩]

/-- A decimal is kept if it fits, and else rounded to the finest scale that fits. It is refused if
no scale fits, and also if only the carry of rounding keeps it from a finer scale. -/
theorem toPrecision_numeric (d : Decimal) (p : Nat) :
    (d.Fits p → toPrecision (.numeric d) (.int p) = .ok (.numeric d)) ∧
    (¬ d.Fits p →
      (∃ s, d.IsFinestScale p s ∧ toPrecision (.numeric d) (.int p) =
        if s + 1 < d.scale ∧ (d.setScale (s + 1 : Nat) .down).Fits p then
          fail (.numericOverflow d.text [])
        else .ok (.numeric (d.setScale s .halfUp))) ∨
      ((∀ s < d.scale, ¬ (d.setScale s .halfUp).Fits p) ∧
        toPrecision (.numeric d) (.int p) = fail (.numericOverflow d.text []))) := by
  refine ⟨fun hfits => ?_, fun hnot => ?_⟩
  · simp only [toPrecision, decimalFits_int, decide_eq_true hfits, if_true]
    rfl
  · by_cases hsome : ∃ s < d.scale, (d.setScale s .halfUp).Fits p
    · obtain ⟨s, hlt, hfits⟩ := hsome
      obtain ⟨finest, hfinest⟩ := Decimal.exists_finestScale hlt hfits
      exact .inl ⟨finest, hfinest, toPrecision_of_finestScale hnot hfinest⟩
    · have hnone : ∀ s < d.scale, ¬ (d.setScale s .halfUp).Fits p :=
        fun s hlt hfits => hsome ⟨s, hlt, hfits⟩
      refine .inr ⟨hnone, ?_⟩
      rw [toPrecision_of_not_fits hnot, if_neg]
      rintro ⟨hle, hfits⟩
      exact hnone _ (Decimal.lt_scale_of_not_fits hnot hle) hfits

theorem toPrecision_numeric_of_half :
    toPrecision (.numeric ⟨12345, 3⟩) (.int 4) = .ok (.numeric ⟨1235, 2⟩) := by
  have hnot : ¬ Decimal.Fits ⟨12345, 3⟩ 4 := by decide
  rcases (toPrecision_numeric ⟨12345, 3⟩ 4).2 hnot with ⟨s, ⟨hlt, -, hfinest⟩, h⟩ | ⟨hnone, -⟩
  · have hle := hfinest 2 (by decide) (by decide)
    obtain rfl : s = 2 := by change s < 3 at hlt; omega
    rw [if_neg (by decide)] at h
    exact h
  · exact absurd (by decide) (hnone 2 (by decide))

/-- Cut to one fractional digit `9.96` has the two digits `9.9`, but it rounds to `10.0`. -/
theorem toPrecision_refuses_carry :
    let d : Decimal := ⟨996, 2⟩
    ¬ d.Fits 2 ∧ d.IsFinestScale 2 0 ∧ d.setScale (0 : Nat) .halfUp = ⟨10, 0⟩ ∧
      toPrecision (.numeric d) (.int 2) = fail (.numericOverflow "9.96" []) := by
  have hnot : ¬ Decimal.Fits ⟨996, 2⟩ 2 := by decide
  refine ⟨hnot, ⟨by decide, by decide, fun t ht hfits => ?_⟩, by decide, ?_⟩
  · obtain rfl | rfl : t = 0 ∨ t = 1 := by change t < 2 at ht; omega
    · exact Nat.le_refl 0
    · exact absurd hfits (by decide)
  · exact (toPrecision_of_not_fits hnot).trans (if_neg (by decide))

end Value

end Datum
