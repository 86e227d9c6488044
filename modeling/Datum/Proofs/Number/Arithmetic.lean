import Datum.Proofs.Number.Nearest
import Mathlib.Tactic.Positivity

/-!
# Decimal arithmetic

Decimals compute with their values. Where digits are dropped, the result is settled by its scale: of
all decimals of that scale it is the one that the mode prefers for the exact number. Without its
zeros at the end a decimal has the least scale at which its value can be written.
-/

set_option autoImplicit false

namespace Datum

namespace RoundingMode

/-- Whether `a` is at least as good as `b` in place of `x`: the nearer one is better, and of two
that are equally near the one further from zero (`halfUp`) or the one nearer to zero (`halfDown`).
For `down` the nearer one of those that are no further from zero than `x` is better. -/
def Prefers (mode : RoundingMode) (x a b : ℚ) : Prop :=
  match mode with
  | .halfUp => |x - a| < |x - b| ∨ |x - a| = |x - b| ∧ |b| ≤ |a|
  | .halfDown => |x - a| < |x - b| ∨ |x - a| = |x - b| ∧ |a| ≤ |b|
  | .down => |b| ≤ |x| → |a| ≤ |x| ∧ |x - a| ≤ |x - b|

variable {mode : RoundingMode} {x a b c : ℚ}

theorem prefers_self (mode : RoundingMode) (x b : ℚ) : mode.Prefers x x b := by
  have hself : |x - x| = 0 := by simp
  have hdistance := abs_nonneg (x - b)
  cases mode with
  | halfUp | halfDown =>
    rw [Prefers, hself]
    rcases hdistance.lt_or_eq with hlt | hzero
    · exact .inl hlt
    · rw [← sub_eq_zero.1 (abs_eq_zero.1 hzero.symm)]
      exact .inr ⟨hself.symm, le_rfl⟩
  | down =>
    rw [Prefers, hself]
    exact fun _ => ⟨le_rfl, hdistance⟩

theorem prefers_neg : mode.Prefers (-x) (-a) (-b) ↔ mode.Prefers x a b := by
  have hdistance (y : ℚ) : |-x - -y| = |x - y| := by rw [neg_sub_neg, abs_sub_comm]
  simp only [Prefers, hdistance, abs_neg]

theorem prefers_mul (hc : 0 < c) : mode.Prefers (x * c) (a * c) (b * c) ↔ mode.Prefers x a b := by
  have hdistance (y : ℚ) : |x * c - y * c| = |x - y| * c := by
    rw [← sub_mul, abs_mul, abs_of_pos hc]
  have hmagnitude (y : ℚ) : |y * c| = |y| * c := by rw [abs_mul, abs_of_pos hc]
  simp only [Prefers, hdistance, hmagnitude, mul_lt_mul_iff_left₀ hc, mul_le_mul_iff_left₀ hc,
    mul_left_inj' hc.ne']

/-- Two that are as good as each other, and as zero, are equal. -/
theorem eq_of_prefers (hab : mode.Prefers x a b) (hba : mode.Prefers x b a)
    (ha : mode.Prefers x a 0) (hb : mode.Prefers x b 0) : a = b := by
  -- what is equally near to `x` is equal, or `x` lies halfway between
  have hhalfway (h : |x - a| = |x - b|) : a = b ∨ a + b = 2 * x := by
    rcases abs_eq_abs.1 h with hsame | hturned
    · exact .inl (by linarith)
    · exact .inr (by linarith)
  have hties {p q : Prop} (h : |x - a| < |x - b| ∨ |x - a| = |x - b| ∧ p)
      (h' : |x - b| < |x - a| ∨ |x - b| = |x - a| ∧ q) (hmagnitude : p → q → |a| = |b|)
      (hnear : |x - a| ≤ |x - 0|) : a = b := by
    obtain ⟨hdistance, hp⟩ :=
      h.resolve_left fun hlt => h'.elim (not_lt_of_gt hlt) fun heq => hlt.ne' heq.1
    obtain ⟨-, hq⟩ := h'.resolve_left fun hlt => hlt.ne' hdistance
    rcases hhalfway hdistance with heq | hsum
    · exact heq
    rcases abs_eq_abs.1 (hmagnitude hp hq) with heq | hturned
    · exact heq
    have hx : x = 0 := by linarith
    rw [hx, sub_zero, abs_zero, zero_sub, abs_neg, abs_nonpos_iff] at hnear
    linarith
  cases mode with
  | halfUp =>
    exact hties hab hba (fun hle hge => le_antisymm hge hle) (ha.elim le_of_lt fun h => h.1.le)
  | halfDown =>
    exact hties hab hba (fun hle hge => le_antisymm hle hge) (ha.elim le_of_lt fun h => h.1.le)
  | down =>
    have hzero : |(0 : ℚ)| ≤ |x| := by simp
    obtain ⟨hale, -⟩ := ha hzero
    obtain ⟨hble, -⟩ := hb hzero
    rcases hhalfway (le_antisymm (hab hble).2 (hba hale).2) with heq | hsum
    · exact heq
    rw [abs_le] at hale hble
    rcases abs_cases x with ⟨hx, -⟩ | ⟨hx, -⟩ <;> rw [hx] at hale hble <;> linarith

end RoundingMode

namespace Decimal

open RoundingMode

variable {mode : RoundingMode} {x : ℚ} {d e : Decimal}

/-- Of all decimals of its scale a decimal is the one that a mode prefers for a number. -/
def IsRounded (mode : RoundingMode) (x : ℚ) (d : Decimal) : Prop :=
  ∀ e : Decimal, e.scale = d.scale → mode.Prefers x d.value e.value

theorem eq_of_value (hvalue : d.value = e.value) (hscale : d.scale = e.scale) : d = e := by
  have hpow : (10 : ℚ) ^ e.scale ≠ 0 := by positivity
  rw [value, value, hscale, div_left_inj' hpow, Int.cast_inj] at hvalue
  cases d
  cases e
  exact congrArg₂ _ hvalue hscale

theorem IsRounded.unique (hd : IsRounded mode x d) (he : IsRounded mode x e)
    (hscale : d.scale = e.scale) : d = e := by
  have hzero : (⟨0, e.scale⟩ : Decimal).value = 0 := by simp [value]
  have hd0 := hd ⟨0, e.scale⟩ hscale.symm
  have he0 := he ⟨0, e.scale⟩ rfl
  rw [hzero] at hd0 he0
  exact eq_of_value (eq_of_prefers (hd e hscale.symm) (he d hscale) hd0 he0) hscale

theorem isRounded_self (mode : RoundingMode) (d : Decimal) : IsRounded mode d.value d :=
  fun e _ => prefers_self mode d.value e.value

/-- A multiple of a divisor is one of two neighbours or beyond them. -/
theorem multiple_cases (k q : Int) (den : Nat) : k * den + den ≤ q * den ∨ k * den = q * den ∨
    k * den = q * den + den ∨ q * den + 2 * den ≤ k * den := by
  have hmono {i j : Int} (h : i ≤ j) : i * den ≤ j * den :=
    Int.mul_le_mul_of_nonneg_right h (Int.natCast_nonneg den)
  have hcases : k + 1 ≤ q ∨ k = q ∨ k = q + 1 ∨ q + 2 ≤ k := by omega
  rcases hcases with h | rfl | rfl | h
  · exact .inl (by simpa only [Int.add_mul, Int.one_mul] using hmono h)
  · exact .inr (.inl rfl)
  · exact .inr (.inr (.inl (by rw [Int.add_mul, Int.one_mul])))
  · exact .inr (.inr (.inr (by simpa only [Int.add_mul] using hmono h)))

theorem prefers_roundQuotient (num : Int) {den : Nat} (hden : 0 < den) (mode : RoundingMode)
    (k : Int) : mode.Prefers num (roundQuotient num den mode * den) (k * den) := by
  have hnatural (n : Nat) (k : Int) : mode.Prefers ((n : Int) : ℚ)
      ((roundQuotient n den mode * den : Int) : ℚ) ((k * den : Int) : ℚ) := by
    have hsplit : ((n / den : Nat) : Int) * den + (n % den : Nat) = n := by
      exact_mod_cast Nat.div_add_mod' n den
    have hlt : n % den < den := Nat.mod_lt n hden
    have hbase : 0 ≤ ((n / den : Nat) : Int) * den := by positivity
    have hmultiple := multiple_cases k (n / den : Nat) den
    rw [roundQuotient_mul]
    -- from here on only the base, the remainder and the other multiple count
    generalize ((n / den : Nat) : Int) * den = base at hsplit hbase hmultiple
    generalize k * (den : Int) = multiple at hmultiple
    cases mode with
    | halfUp =>
      simp only [Prefers, isAway_halfUp hden, decide_eq_true_eq]
      norm_cast
      simp only [Int.abs_eq_natAbs]
      split <;> omega
    | halfDown =>
      simp only [Prefers, isAway, decide_eq_true_eq]
      norm_cast
      simp only [Int.abs_eq_natAbs]
      split <;> omega
    | down =>
      simp only [Prefers, isAway, Bool.false_eq_true, if_false]
      norm_cast
      simp only [Int.abs_eq_natAbs]
      omega
  -- below zero all is turned round
  rcases Int.eq_nat_or_neg num with ⟨n, rfl | rfl⟩
  · exact_mod_cast hnatural n k
  · have hturned := hnatural n (-k)
    rw [← prefers_neg] at hturned
    rw [roundQuotient_neg]
    push_cast at hturned ⊢
    simpa only [neg_mul, neg_neg] using hturned

variable {s : Nat}

theorem isRounded_roundQuotient {num : Int} {den : Nat} (hden : 0 < den) (mode : RoundingMode)
    (hx : x * 10 ^ s = num / den) : IsRounded mode x ⟨roundQuotient num den mode, s⟩ := by
  intro e he
  have hpow : (0 : ℚ) < 10 ^ s := by positivity
  have hpos : (0 : ℚ) < den := Nat.cast_pos.2 hden
  have hvalue {d : Decimal} (hd : d.scale = s) :
      d.value * (10 ^ s * den) = d.unscaled * den := by
    rw [value, hd, ← mul_assoc, div_mul_cancel₀ _ hpow.ne']
  have hnum : x * (10 ^ s * den) = num := by
    rw [← mul_assoc, hx, div_mul_cancel₀ _ hpos.ne']
  rw [← prefers_mul (mul_pos hpow hpos), hnum, hvalue rfl, hvalue he]
  exact prefers_roundQuotient num hden mode e.unscaled

theorem setScale_of_le (h : d.scale ≤ s) (mode : RoundingMode) :
    d.setScale s mode = ⟨d.unscaledAt s, s⟩ := by
  rcases h.lt_or_eq with hlt | rfl
  · rw [setScale, if_neg (by omega), if_pos (by omega), Int.toNat_natCast]
  · rw [setScale, if_pos rfl, unscaledAt, Nat.sub_self]
    simp

theorem value_unscaledAt (h : d.scale ≤ s) : (⟨d.unscaledAt s, s⟩ : Decimal).value = d.value := by
  have hpow : (10 : ℚ) ^ s ≠ 0 := by positivity
  rw [value, unscaledAt_eq d h, mul_div_cancel_right₀ _ hpow]

theorem setScale_rounded (d : Decimal) (s : Nat) (mode : RoundingMode) :
    (d.setScale s mode).scale = s ∧ IsRounded mode d.value (d.setScale s mode) := by
  rcases le_or_gt d.scale s with hle | hlt
  · rw [setScale_of_le hle, ← value_unscaledAt hle]
    exact ⟨rfl, isRounded_self mode _⟩
  · rw [setScale_of_lt hlt]
    refine ⟨rfl, isRounded_roundQuotient (Nat.pow_pos (by decide)) mode ?_⟩
    have hsplit : (10 : ℚ) ^ d.scale = 10 ^ (d.scale - s) * 10 ^ s := by
      rw [← pow_add, Nat.sub_add_cancel hlt.le]
    rw [value, hsplit]
    push_cast
    field_simp

theorem ofScaled_natCast (n : Int) (s : Nat) : ofScaled n s = ⟨n, s⟩ := by
  rw [ofScaled, if_neg (by omega), Int.toNat_natCast]

theorem unscaled_ne_zero (h : d.value ≠ 0) : d.unscaled ≠ 0 := by
  intro hzero
  simp [value, hzero] at h

theorem quotient_rounded {a b : Decimal} (hb : b.value ≠ 0) (s : Nat) (mode : RoundingMode) :
    (a.quotient b s mode).scale = s ∧ IsRounded mode (a.value / b.value) (a.quotient b s mode) := by
  have hdivisor := unscaled_ne_zero hb
  have hden : 0 < b.unscaled.natAbs * Nat.pow 10 a.scale :=
    Nat.mul_pos (Int.natAbs_pos.2 hdivisor) (Nat.pow_pos (by decide))
  have hshift : ((b.scale : Int) + s).toNat = b.scale + s := by omega
  rw [quotient, ofScaled_natCast, hshift]
  refine ⟨rfl, isRounded_roundQuotient hden mode ?_⟩
  have hdivisor' : (b.unscaled : ℚ) ≠ 0 := Int.cast_ne_zero.2 hdivisor
  -- the sign of the divisor goes to the numerator
  rcases lt_or_gt_of_ne hdivisor with hneg | hpos
  · have habs : ((b.unscaled.natAbs : Nat) : ℚ) = -b.unscaled := by
      rw [Nat.cast_natAbs, abs_of_neg hneg, Int.cast_neg]
    rw [if_pos hneg, value, value]
    simp only [Nat.pow_eq]
    push_cast
    rw [habs, pow_add]
    field_simp
  · have habs : ((b.unscaled.natAbs : Nat) : ℚ) = b.unscaled := by
      rw [Nat.cast_natAbs, abs_of_pos hpos]
    rw [if_neg (Int.lt_asymm hpos), value, value]
    simp only [Nat.pow_eq]
    push_cast
    rw [habs, pow_add]
    field_simp

/-- The scale and what a mode prefers at it leave no choice. -/
theorem eq_iff_isRounded {r : Decimal} (h : d.scale = s ∧ IsRounded mode x d) :
    d = r ↔ r.scale = s ∧ IsRounded mode x r := by
  obtain ⟨rfl, hd⟩ := h
  constructor
  · rintro rfl
    exact ⟨rfl, hd⟩
  · rintro ⟨hscale, hr⟩
    exact hd.unique hr hscale.symm

theorem dropZeros_least (count : Nat) (n : Int) :
    (dropZeros count n).scale = 0 ∨ ¬ 10 ∣ (dropZeros count n).unscaled := by
  induction count generalizing n with
  | zero => exact .inl rfl
  | succ count ih =>
    unfold dropZeros
    split
    next => exact ih _
    next hlast => exact .inr (mt Int.tmod_eq_zero_of_dvd hlast)

theorem scale_stripTrailingZeros_le (h : e.value = d.value) :
    d.stripTrailingZeros.scale ≤ e.scale := by
  rw [← value_stripTrailingZeros d] at h
  rcases dropZeros_least d.scale d.unscaled with hzero | hlast
  · exact hzero ▸ Nat.zero_le _
  · by_contra hlt
    have hgt : e.scale < d.stripTrailingZeros.scale := Nat.lt_of_not_le hlt
    have hpow : (10 : ℚ) ^ d.stripTrailingZeros.scale ≠ 0 := by positivity
    -- written with more digits than it has, `e` ends in a zero
    have hunscaled : e.unscaledAt d.stripTrailingZeros.scale = d.stripTrailingZeros.unscaled := by
      rw [← Int.cast_inj (α := ℚ), unscaledAt_eq e hgt.le, h, value, div_mul_cancel₀ _ hpow]
    refine hlast ?_
    have hten : (10 : Int) ∣ (Nat.pow 10 (d.stripTrailingZeros.scale - e.scale) : Nat) :=
      Int.natCast_dvd_natCast.2 (dvd_pow_self 10 (by omega))
    change 10 ∣ d.stripTrailingZeros.unscaled
    rw [← hunscaled]
    exact Dvd.dvd.mul_left hten _

section Capacity

variable {a b : Decimal}

theorem rescale_eq_setScale (h : ((s : Int) - d.scale).natAbs ≤ maxPower) (mode : RoundingMode) :
    d.rescale s mode = .ok (d.setScale s mode) := if_neg (Nat.not_lt.2 h)

theorem div_eq_quotient (hb : b.value ≠ 0) (hshift : b.scale + s ≤ maxPower)
    (hscale : a.scale ≤ maxPower) (mode : RoundingMode) :
    a.div b s mode = .ok (a.quotient b s mode) := by
  have hpowers : ¬ (decide (maxPower < ((b.scale : Int) + s).natAbs) ||
      decide (maxPower < a.scale)) = true := by
    simp only [Bool.or_eq_true, decide_eq_true_eq]
    omega
  rw [div, if_neg (unscaled_ne_zero hb), if_neg (by omega), if_neg hpowers]

end Capacity

/-- Sums, products and signs are those of the values, and so is the order. Rescaled or divided, a
decimal is settled by its scale, its mode and the exact value. Powers of ten up to `maxPower` are
computed for that. Without zeros at the end the value is written at the least scale. -/
theorem arithmetic_on_values (a b : Decimal) :
    (a.add b).value = a.value + b.value ∧ (a.mul b).value = a.value * b.value ∧
    a.neg.value = -a.value ∧ a.compare b = Ord.compare a.value b.value ∧
    (∀ (s : Nat) mode r, a.setScale s mode = r ↔ r.scale = s ∧ IsRounded mode a.value r) ∧
    (∀ (s : Nat) mode, ((s : Int) - a.scale).natAbs ≤ maxPower →
      a.rescale s mode = .ok (a.setScale s mode)) ∧
    (b.value ≠ 0 → ∀ (s : Nat) mode,
      (∀ r, a.quotient b s mode = r ↔ r.scale = s ∧ IsRounded mode (a.value / b.value) r) ∧
      (b.scale + s ≤ maxPower → a.scale ≤ maxPower →
        a.div b s mode = .ok (a.quotient b s mode))) ∧
    a.stripTrailingZeros.value = a.value ∧
      ∀ e : Decimal, e.value = a.value → a.stripTrailingZeros.scale ≤ e.scale := by
  refine ⟨value_add a b, value_mul a b, value_neg a, compare_eq a b, fun s mode r => ?_,
    fun s mode h => rescale_eq_setScale h mode, fun hb s mode => ⟨fun r => ?_, fun hshift hscale =>
      div_eq_quotient hb hshift hscale mode⟩,
    value_stripTrailingZeros a, fun e => scale_stripTrailingZeros_le⟩
  · exact eq_iff_isRounded (setScale_rounded a s mode)
  · exact eq_iff_isRounded (quotient_rounded hb s mode)

theorem arithmetic_on_values_of_quarter :
    let a : Decimal := ⟨-1, 0⟩
    let b : Decimal := ⟨4, 0⟩
    b.value ≠ 0 ∧ a.div b (1 : Nat) .halfUp = .ok ⟨-3, 1⟩ ∧
      a.div b (1 : Nat) .halfDown = .ok ⟨-2, 1⟩ ∧ IsRounded .halfUp (a.value / b.value) ⟨-3, 1⟩ ∧
      IsRounded .halfDown (a.value / b.value) ⟨-2, 1⟩ := by
  intro a b
  have hb : b.value ≠ 0 := by norm_num [b, value]
  have hup : a.quotient b (1 : Nat) .halfUp = ⟨-3, 1⟩ := by decide
  have hdown : a.quotient b (1 : Nat) .halfDown = ⟨-2, 1⟩ := by decide
  obtain ⟨-, -, -, -, -, -, hquotient, -⟩ := arithmetic_on_values a b
  obtain ⟨hupIff, hupDiv⟩ := hquotient hb 1 .halfUp
  obtain ⟨hdownIff, hdownDiv⟩ := hquotient hb 1 .halfDown
  refine ⟨hb, ?_, ?_, ((hupIff _).1 hup).2, ((hdownIff _).1 hdown).2⟩
  · rw [hupDiv (by decide) (by decide), hup]
  · rw [hdownDiv (by decide) (by decide), hdown]

end Decimal

end Datum
