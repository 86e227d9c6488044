import Datum.Proofs.Number.DecimalValue
import Mathlib.Algebra.Order.Round
import Mathlib.Data.Rat.Floor

/-!
# Rounding to the nearest integer

The integer that is left of a decimal without its fraction depends on its value alone. It is the
nearest one, a half away from zero, so that rounding is odd and monotone.
-/

set_option autoImplicit false

namespace Datum

namespace Number

/-- The nearest integer to a rational number, a half away from zero. -/
def nearest (x : ℚ) : Int := if x < 0 then -round (-x) else round x

variable {x y : ℚ} {n : Int}

theorem nearest_of_nonneg (h : 0 ≤ x) : nearest x = round x := if_neg (not_lt.2 h)

theorem nearest_neg (x : ℚ) : nearest (-x) = -nearest x := by
  rcases lt_trichotomy x 0 with hneg | rfl | hpos
  · rw [nearest_of_nonneg (neg_nonneg.2 hneg.le), nearest, if_pos hneg, Int.neg_neg]
  · simp [nearest]
  · rw [nearest_of_nonneg hpos.le, nearest, if_pos (neg_neg_iff_pos.2 hpos), neg_neg]

theorem round_mono (h : x ≤ y) : round x ≤ round y := by
  rw [round_eq, round_eq]
  exact Int.floor_mono (add_le_add_left h _)

theorem nearest_nonneg (h : 0 ≤ x) : 0 ≤ nearest x := by
  rw [nearest_of_nonneg h, ← round_zero (α := ℚ)]
  exact round_mono h

theorem nearest_mono (h : x ≤ y) : nearest x ≤ nearest y := by
  rcases lt_or_ge y 0 with hy | hy
  · rw [nearest, nearest, if_pos (h.trans_lt hy), if_pos hy]
    exact neg_le_neg (round_mono (neg_le_neg h))
  · rcases lt_or_ge x 0 with hx | hx
    · have hnonneg := nearest_nonneg (neg_nonneg.2 hx.le)
      rw [nearest_neg] at hnonneg
      exact (neg_nonneg.1 hnonneg).trans (nearest_nonneg hy)
    · rw [nearest_of_nonneg hx, nearest_of_nonneg hy]
      exact round_mono h

theorem abs_sub_nearest_le (x : ℚ) : |x - nearest x| ≤ 1 / 2 := by
  unfold nearest
  split
  · have hturned : x - (-round (-x) : Int) = -(-x - round (-x)) := by
      push_cast
      ring
    rw [hturned, abs_neg]
    exact abs_sub_round (-x)
  · exact abs_sub_round x

theorem nearest_eq_of_abs_lt (h : |x - n| < 1 / 2) : nearest x = n := by
  have herror := abs_sub_nearest_le x
  rw [abs_lt] at h
  rw [abs_le] at herror
  have hlt : (nearest x : ℚ) < n + 1 := by linarith
  have hgt : (n : ℚ) < nearest x + 1 := by linarith
  norm_cast at hlt hgt
  omega

@[simp] theorem nearest_intCast (n : Int) : nearest n = n :=
  nearest_eq_of_abs_lt (by simp)

theorem le_nearest (h : n ≤ x) : n ≤ nearest x := by
  rw [← nearest_intCast n]
  exact nearest_mono h

theorem nearest_le (h : x ≤ n) : nearest x ≤ n := by
  rw [← nearest_intCast n]
  exact nearest_mono h

end Number

def RoundingMode.isAway (mode : RoundingMode) (rest den : Nat) : Bool :=
  match mode with
  | .halfUp => rest != 0 && den ≤ 2 * rest
  | .halfDown => den < 2 * rest
  | .down => false

namespace RoundingMode

@[simp] theorem isAway_zero (mode : RoundingMode) (den : Nat) : mode.isAway 0 den = false := by
  cases mode <;> simp [isAway]

theorem isAway_halfUp {rest den : Nat} (hden : 0 < den) :
    isAway .halfUp rest den = decide (den ≤ 2 * rest) := by
  rw [isAway, Bool.eq_iff_iff]
  simp only [Bool.and_eq_true, bne_iff_ne, decide_eq_true_eq, and_iff_right_iff_imp]
  omega

end RoundingMode

namespace Decimal

open Number

variable {den : Nat}

theorem roundQuotient_eq_add (num : Int) (den : Nat) (mode : RoundingMode) :
    roundQuotient num den mode =
      num.tdiv den + if mode.isAway (num.tmod den).natAbs den then num.sign else 0 := by
  have hcode : roundQuotient num den mode = if mode.isAway (num.tmod den).natAbs den then
      (if num < 0 then num.tdiv den - 1 else num.tdiv den + 1) else num.tdiv den := by
    cases mode <;> rfl
  rw [hcode]
  rcases Int.lt_trichotomy num 0 with hneg | rfl | hpos
  · rw [if_pos hneg, Int.sign_eq_neg_one_of_neg hneg]
    split <;> omega
  · simp
  · rw [if_neg (Int.lt_asymm hpos), Int.sign_eq_one_of_pos hpos]
    split <;> omega

theorem roundQuotient_neg (num : Int) (den : Nat) (mode : RoundingMode) :
    roundQuotient (-num) den mode = -roundQuotient num den mode := by
  simp only [roundQuotient_eq_add, Int.neg_tdiv, Int.neg_tmod, Int.natAbs_neg, Int.sign_neg]
  split <;> omega

theorem roundQuotient_natCast (num den : Nat) (mode : RoundingMode) :
    roundQuotient num den mode =
      ((num / den : Nat) : Int) + if mode.isAway (num % den) den then 1 else 0 := by
  rw [roundQuotient_eq_add, ← Int.ofNat_tdiv, ← Int.ofNat_tmod, Int.natAbs_natCast]
  rcases Nat.eq_zero_or_pos num with rfl | hpos
  · simp
  · rw [Int.sign_eq_one_of_pos (Int.natCast_pos.2 hpos)]

theorem natAbs_roundQuotient (num : Int) (den : Nat) (mode : RoundingMode) :
    (roundQuotient num den mode).natAbs =
      num.natAbs / den + if mode.isAway (num.natAbs % den) den then 1 else 0 := by
  have hnatural (n : Nat) : (roundQuotient n den mode).natAbs =
      n / den + if mode.isAway (n % den) den then 1 else 0 := by
    rw [roundQuotient_natCast]
    split <;> exact Int.natAbs_natCast _
  rcases Int.eq_nat_or_neg num with ⟨n, rfl | rfl⟩
  · exact hnatural n
  · rw [roundQuotient_neg, Int.natAbs_neg, Int.natAbs_neg, hnatural, Int.natAbs_natCast]

theorem roundQuotient_mul (num den : Nat) (mode : RoundingMode) : roundQuotient num den mode * den =
    (num / den : Nat) * (den : Int) + if mode.isAway (num % den) den then (den : Int) else 0 := by
  rw [roundQuotient_natCast, Int.add_mul]
  split <;> simp

/-- What a quotient with a half toward zero is off by, in units of the divisor's inverse. -/
theorem roundQuotient_halfDown_mul (num den : Nat) : roundQuotient num den .halfDown * den =
    num - (num % den : Nat) + if den < 2 * (num % den) then (den : Int) else 0 := by
  have hsplit : ((num / den : Nat) : Int) * den + (num % den : Nat) = num := by
    exact_mod_cast Nat.div_add_mod' num den
  rw [roundQuotient_mul, RoundingMode.isAway]
  simp only [decide_eq_true_eq]
  split <;> omega

theorem roundQuotient_halfUp (num : Int) (hden : 0 < den) :
    roundQuotient num den .halfUp = nearest (num / den) := by
  have hnatural (n : Nat) : roundQuotient n den .halfUp = nearest (n / den) := by
    have hpos : (0 : ℚ) < den := Nat.cast_pos.2 hden
    have hsplit : (den : ℚ) * (n / den : Nat) + (n % den : Nat) = n := by
      exact_mod_cast Nat.div_add_mod n den
    have hlt : ((n % den : Nat) : ℚ) < den := Nat.cast_lt.2 (Nat.mod_lt n hden)
    have hrest : (0 : ℚ) ≤ (n % den : Nat) := Nat.cast_nonneg _
    rw [nearest_of_nonneg (by positivity), roundQuotient_natCast, RoundingMode.isAway_halfUp hden,
      eq_comm, round_eq_iff, Set.mem_Ico, le_div_iff₀ hpos, div_lt_iff₀ hpos]
    by_cases hup : den ≤ 2 * (n % den)
    · have hhalf : (den : ℚ) ≤ 2 * (n % den : Nat) := by exact_mod_cast hup
      simp only [hup, decide_true, if_true, Int.cast_add, Int.cast_natCast, Int.cast_one]
      constructor <;> linarith
    · have hhalf : 2 * ((n % den : Nat) : ℚ) < den := by exact_mod_cast Nat.lt_of_not_le hup
      simp only [hup, decide_false, Bool.false_eq_true, if_false, Int.cast_add, Int.cast_natCast,
        Int.cast_zero]
      constructor <;> linarith
  rcases Int.eq_nat_or_neg num with ⟨n, rfl | rfl⟩
  · exact hnatural n
  · rw [roundQuotient_neg, hnatural, Int.cast_neg, Int.cast_natCast, neg_div, nearest_neg]

theorem setScale_of_lt {d : Decimal} {s : Nat} (h : s < d.scale) (mode : RoundingMode) :
    d.setScale s mode = ⟨roundQuotient d.unscaled (Nat.pow 10 (d.scale - s)) mode, s⟩ := by
  have hdropped : ((d.scale : Int) - s).toNat = d.scale - s := by omega
  rw [setScale, if_neg (by omega), if_neg (by omega), ofScaled, if_neg (by omega), hdropped,
    Int.toNat_natCast]

theorem unscaled_setScale_zero (d : Decimal) :
    (d.setScale 0 .halfUp).unscaled = nearest d.value := by
  by_cases hscale : d.scale = 0
  · have hzero : (0 : Int) = d.scale := by omega
    rw [setScale, if_pos hzero, value, hscale, pow_zero, div_one, nearest_intCast]
  · have hne : ¬ (0 : Int) = d.scale := by omega
    have hnot : ¬ (d.scale : Int) < 0 := by omega
    have hpow : 0 < Nat.pow 10 d.scale := Nat.pow_pos (by decide)
    rw [setScale, if_neg hne, if_neg hnot, Int.sub_zero, Int.toNat_natCast,
      roundQuotient_halfUp _ hpow]
    simp [ofScaled, value, Nat.pow_eq]

end Decimal

end Datum
