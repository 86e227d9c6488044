import Datum.Number.Double
import Datum.Number.Num
import Mathlib.Algebra.Order.Ring.Nat

/-!
# Rounding to 53 bits

Integers within 53 bits stay as they are, and those beyond never come back within them. So a number
that is a safe integer after rounding was not rounded.
-/

set_option autoImplicit false

namespace Datum

namespace Number

theorem round53_of_le {n : Int} (h : n.natAbs ≤ 0x20000000000000) : round53 n = n := if_pos h

theorem div_le_roundEven (num den : Nat) : num / den ≤ roundEven num den := by
  simp only [roundEven]
  split
  · exact Nat.le_refl _
  split
  · exact Nat.le_succ _
  split
  · exact Nat.le_refl _
  · exact Nat.le_succ _

theorem roundEven_one (n : Nat) : roundEven n 1 = n := by
  simp [roundEven, Nat.mod_one]

theorem floorLog2_one {n : Nat} (h : n ≠ 0) : floorLog2 n 1 = n.log2 := by
  have hle : Nat.pow 2 n.log2 ≤ n := Nat.log2_self_le h
  have hone : Nat.log2 1 = 0 := by decide
  have hneg : (-(n.log2 : Int)).toNat = 0 := by omega
  simp only [floorLog2, hone, Int.natCast_zero, Int.sub_zero, Int.toNat_natCast, hneg]
  rw [if_neg]
  simpa using hle

theorem le_roundBinary {n : Nat} (h : 0x20000000000000 ≤ n) :
    0x20000000000000 ≤ (roundBinary 53 0 n 1).1 * Nat.pow 2 (roundBinary 53 0 n 1).2.toNat := by
  have hne : n ≠ 0 := by omega
  have hlog : 53 ≤ n.log2 := (Nat.le_log2 hne).2 h
  obtain ⟨k, hk⟩ := Nat.exists_eq_add_of_le hlog
  have hq : max (0 : Int) (floorLog2 n 1 - ((53 - 1 : Nat) : Int)) = (k + 1 : Nat) := by
    rw [floorLog2_one hne, hk]
    omega
  have hneg : (-((k + 1 : Nat) : Int)).toNat = 0 := by omega
  have hself : 2 ^ n.log2 ≤ n := Nat.log2_self_le hne
  have hpow : 2 ^ n.log2 = 0x10000000000000 * 2 ^ (k + 1) := by
    rw [hk, show 53 + k = 52 + (k + 1) by omega, Nat.pow_add]
  have hdiv : 0x10000000000000 ≤ n / 2 ^ (k + 1) :=
    (Nat.le_div_iff_mul_le (Nat.two_pow_pos _)).2 (hpow ▸ hself)
  have hround := hdiv.trans (div_le_roundEven n (2 ^ (k + 1)))
  have htwo : 2 ≤ 2 ^ (k + 1) := Nat.le_self_pow (by omega) 2
  simp only [roundBinary, hq, hneg, Int.toNat_natCast, Nat.pow_eq, Nat.pow_zero, Nat.mul_one,
    Nat.one_mul]
  exact Nat.mul_le_mul hround htwo

/-- Beyond 53 bits rounding does not come back below them. -/
theorem le_natAbs_round53 {n : Int} (h : 0x20000000000000 < n.natAbs) :
    0x20000000000000 ≤ (round53 n).natAbs := by
  have hle := le_roundBinary (n := n.natAbs) (by omega)
  rw [round53, if_neg (by omega)]
  simp only
  split
  · rwa [Int.natAbs_neg, Int.natAbs_natCast]
  · rwa [Int.natAbs_natCast]

end Number

open Number

theorem Num.isSafe_iff {n : Int} : isSafe n = true ↔ n.natAbs < 0x20000000000000 := by
  rw [isSafe, Bool.and_eq_true, decide_eq_true_eq, decide_eq_true_eq]
  unfold maxSafe
  omega

theorem Num.isSafe_round53 (n : Int) : isSafe (round53 n) = isSafe n := by
  rw [Bool.eq_iff_iff, isSafe_iff, isSafe_iff]
  by_cases h : n.natAbs ≤ 0x20000000000000
  · rw [round53_of_le h]
  · have hround := le_natAbs_round53 (n := n) (by omega)
    omega

theorem Num.round53_of_isSafe {n : Int} (h : isSafe n = true) : round53 n = n :=
  round53_of_le (Nat.le_of_lt (isSafe_iff.1 h))

/-- An integer of at most 53 bits is a significand, shifted until it has all of them. -/
theorem Double.nearest_one_lt {n : Nat} (h : n < 0x20000000000000) : nearest n 1 < top := by
  unfold top
  by_cases hzero : n = 0
  · subst hzero
    decide
  have hlog : n.log2 < 53 := (Nat.log2_lt hzero).2 h
  obtain ⟨k, hk⟩ := Nat.exists_eq_add_of_le (show n.log2 ≤ 52 by omega)
  have hq : max (-1074 : Int) (floorLog2 n 1 - ((53 - 1 : Nat) : Int)) = -(k : Int) := by
    rw [floorLog2_one hzero]
    omega
  have hneg : (-(-(k : Int))).toNat = k := by omega
  have hpos : (-(k : Int)).toNat = 0 := by omega
  have hexponent : (-(k : Int) + 1074).toNat ≤ 1074 := by omega
  have hsignificand : n * 2 ^ k < 0x20000000000000 :=
    calc
      n * 2 ^ k < 2 ^ (n.log2 + 1) * 2 ^ k :=
        Nat.mul_lt_mul_of_pos_right Nat.lt_log2_self (Nat.two_pow_pos k)
      _ = 0x20000000000000 := by
        rw [← Nat.pow_add, show n.log2 + 1 + k = 53 by omega]
  simp only [nearest, if_neg hzero, roundBinary, hq, hneg, hpos, Nat.pow_eq, Nat.pow_zero,
    Nat.mul_one, roundEven_one, implicitBit]
  omega

theorem Double.isFinite_ofInt {n : Int} (h : Num.isSafe n = true) : (ofInt n).isFinite = true := by
  have hlt := nearest_one_lt (Num.isSafe_iff.1 h)
  simp only [ofInt, ofRatio, ofMagnitude, isFinite, decide_eq_true_eq]
  omega

end Datum
