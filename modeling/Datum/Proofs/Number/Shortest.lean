import Datum.Number.Shortest
import Datum.Proofs.Number.Rounding

/-!
# Digits of shortest decimals

The decimal in which a positive finite number is written is not zero (`shortest_digits_ne_zero`).
Zero does not read back as such a number, and where no decimal of at most seventeen digits would,
the number is at least one unit of the seventeenth place, which is then taken.
-/

set_option autoImplicit false

namespace Datum

namespace Number

/-- Powers of two bases compare as their exponents, weighed by one comparison of powers. -/
theorem pow_le_pow_of_pow_le {x y p q a b : Nat} (hp : p ≠ 0) (hy : 0 < y) (hbase : x ^ p ≤ y ^ q)
    (h : q * a ≤ p * b) : x ^ a ≤ y ^ b := by
  rw [← Nat.pow_le_pow_iff_left hp]
  calc
    (x ^ a) ^ p = (x ^ p) ^ a := by rw [← Nat.pow_mul, Nat.mul_comm, Nat.pow_mul]
    _ ≤ (y ^ q) ^ a := Nat.pow_le_pow_left hbase a
    _ = y ^ (q * a) := (Nat.pow_mul y q a).symm
    _ ≤ y ^ (p * b) := Nat.pow_le_pow_right hy h
    _ = (y ^ b) ^ p := by rw [Nat.mul_comm, Nat.pow_mul]

theorem floorLog2_bounds (num den : Nat) :
    (num.log2 : Int) - den.log2 - 1 ≤ floorLog2 num den ∧
      floorLog2 num den ≤ (num.log2 : Int) - den.log2 := by
  simp only [floorLog2]
  split <;> omega

theorem two_pow_floorLog2_le {num den : Nat} (hnum : num ≠ 0) :
    den * 2 ^ (floorLog2 num den).toNat ≤ num * 2 ^ (-floorLog2 num den).toNat := by
  have hlow : 2 ^ num.log2 ≤ num := Nat.log2_self_le hnum
  have hhigh : den ≤ 2 ^ (den.log2 + 1) := Nat.le_of_lt Nat.lt_log2_self
  by_cases hbelow : num * Nat.pow 2 (-((num.log2 : Int) - den.log2)).toNat
      < den * Nat.pow 2 ((num.log2 : Int) - den.log2).toNat
  · have hlog : floorLog2 num den = (num.log2 : Int) - den.log2 - 1 := if_pos hbelow
    obtain ⟨a, ha⟩ : ∃ a, (floorLog2 num den).toNat = a := ⟨_, rfl⟩
    obtain ⟨b, hb⟩ : ∃ b, (-floorLog2 num den).toNat = b := ⟨_, rfl⟩
    have hexponents : den.log2 + 1 + a = num.log2 + b := by omega
    rw [ha, hb]
    calc
      den * 2 ^ a ≤ 2 ^ (den.log2 + 1) * 2 ^ a := Nat.mul_le_mul_right _ hhigh
      _ = 2 ^ num.log2 * 2 ^ b := by rw [← Nat.pow_add, ← Nat.pow_add, hexponents]
      _ ≤ num * 2 ^ b := Nat.mul_le_mul_right _ hlow
  · have hlog : floorLog2 num den = (num.log2 : Int) - den.log2 := if_neg hbelow
    rw [hlog]
    exact Nat.le_of_not_lt hbelow

end Number

namespace Double

variable {magnitude : Nat}

theorem parts_bounds (hpos : 0 < magnitude) (htop : magnitude < top) :
    0 < (parts magnitude).1 ∧ (parts magnitude).1 < 2 ^ 53 ∧
      -1074 ≤ (parts magnitude).2 ∧ (parts magnitude).2 ≤ 971 := by
  unfold top at htop
  simp only [parts, implicitBit]
  split <;> omega

theorem floorLog2_ratio (hpos : 0 < magnitude) (htop : magnitude < top) :
    (ratio magnitude).1 ≠ 0 ∧
      -1100 ≤ Number.floorLog2 (ratio magnitude).1 (ratio magnitude).2 ∧
      Number.floorLog2 (ratio magnitude).1 (ratio magnitude).2 ≤ 1100 := by
  obtain ⟨hm, hm53, hq, hq'⟩ := parts_bounds hpos htop
  generalize hparts : parts magnitude = p at hm hm53 hq hq'
  obtain ⟨m, q⟩ := p
  have hratio : ratio magnitude = (m * 2 ^ q.toNat, 2 ^ (-q).toNat) := by
    rw [ratio, hparts]
    rfl
  have hne : m * 2 ^ q.toNat ≠ 0 := Nat.ne_of_gt (Nat.mul_pos hm (Nat.two_pow_pos _))
  have hnum : (m * 2 ^ q.toNat).log2 < 53 + q.toNat := by
    rw [Nat.log2_lt hne, Nat.pow_add]
    exact Nat.mul_lt_mul_of_pos_right hm53 (Nat.two_pow_pos _)
  have hden : (2 ^ (-q).toNat).log2 = (-q).toNat := Nat.log2_two_pow
  obtain ⟨hlow, hhigh⟩ := Number.floorLog2_bounds (m * 2 ^ q.toNat) (2 ^ (-q).toNat)
  rw [hratio]
  simp only
  refine ⟨hne, ?_, ?_⟩ <;> omega

end Double

namespace Scientific

open Number

variable {magnitude : Nat}

theorem size_le (num den : Nat) : 100000 * (size num den - 2) ≤ 30103 * floorLog2 num den := by
  have hestimate : (floorLog2 num den * 30103).fdiv 100000 = floorLog2 num den * 30103 / 100000 :=
    Int.fdiv_eq_ediv_of_nonneg _ (by omega)
  simp only [size, hestimate]
  split
  · omega
  split
  · omega
  split <;> omega

theorem grid_seventeen_le {num den : Nat} (hnum : num ≠ 0) (hlow : -1100 ≤ floorLog2 num den)
    (hhigh : floorLog2 num den ≤ 1100) :
    (grid num den (size num den - 17)).2 ≤ (grid num den (size num den - 17)).1 := by
  have hsize := size_le num den
  have htwo := @two_pow_floorLog2_le num den hnum
  generalize floorLog2 num den = e at hlow hhigh hsize htwo
  obtain ⟨k, hk⟩ : ∃ k, size num den - 17 = k := ⟨_, rfl⟩
  -- a thousand is below ten bits, and thirteen bits are below ten thousand
  have hten : 10 ^ k.toNat ≤ 2 ^ e.toNat :=
    pow_le_pow_of_pow_le (p := 3) (q := 10) (by decide) (by decide) (by decide) (by omega)
  have htwo' : 2 ^ (-e).toNat ≤ 10 ^ (-k).toNat :=
    pow_le_pow_of_pow_le (p := 13) (q := 4) (by decide) (by decide) (by decide) (by omega)
  rw [hk]
  calc
    den * 10 ^ k.toNat ≤ den * 2 ^ e.toNat := Nat.mul_le_mul_left _ hten
    _ ≤ num * 2 ^ (-e).toNat := htwo
    _ ≤ num * 10 ^ (-k).toNat := Nat.mul_le_mul_left _ htwo'

theorem grid_pos {num den : Nat} (hden : 0 < den) (exponent : Int) :
    0 < (grid num den exponent).2 :=
  Nat.mul_pos hden (Nat.pow_pos (by decide))

theorem readsBack_zero (hpos : 0 < (Double.parts magnitude).1) (exponent : Int) :
    readsBack magnitude ⟨0, exponent⟩ = false := by
  obtain ⟨m, q, hparts⟩ : ∃ m q, Double.parts magnitude = (m, q) := ⟨_, _, rfl⟩
  rw [hparts] at hpos
  have hlow (n : Nat) (hn : 0 < n) : compareScaled 0 exponent n (q - 2) = .lt := by
    simp only [compareScaled, Nat.zero_mul]
    refine Nat.compare_eq_lt.2 ?_
    exact Nat.mul_pos (Nat.mul_pos hn (Nat.two_pow_pos _)) (Nat.pow_pos (by decide))
  have hend : 0 < 4 * m - if m == Double.implicitBit && -1074 < q then 1 else 2 := by
    split <;> omega
  simp only [readsBack, hparts, hlow _ hend]
  simp

theorem onGrid?_digits_ne_zero (hpos : 0 < (Double.parts magnitude).1) {exponent : Int}
    {d : Scientific} (h : onGrid? magnitude exponent = some d) : d.digits ≠ 0 := by
  have hread : readsBack magnitude d = true := by
    simp only [onGrid?] at h
    split at h
    · cases h
      split <;> assumption
    · cases h
      assumption
    · cases h
      assumption
    · cases h
  intro hzero
  obtain ⟨digits, e⟩ := d
  subst hzero
  rw [readsBack_zero hpos] at hread
  cases hread

theorem strip_digits_ne_zero (fuel : Nat) {d : Scientific} (h : d.digits ≠ 0) :
    (strip fuel d).digits ≠ 0 := by
  induction fuel generalizing d with
  | zero => exact h
  | succ fuel ih =>
    rw [strip]
    split
    next hten =>
      rw [Bool.and_eq_true, decide_eq_true_eq] at hten
      exact ih (show d.digits / 10 ≠ 0 by omega)
    next => exact h

theorem shortest_digits_ne_zero (hpos : 0 < magnitude) (htop : magnitude < Double.top) :
    (shortest magnitude).digits ≠ 0 := by
  obtain ⟨hnum, hlow, hhigh⟩ := Double.floorLog2_ratio hpos htop
  have hden : 0 < (Double.ratio magnitude).2 := Nat.two_pow_pos _
  obtain ⟨num, den, hratio⟩ : ∃ num den, Double.ratio magnitude = (num, den) := ⟨_, _, rfl⟩
  rw [hratio] at hnum hlow hhigh hden
  have hlast := Nat.div_pos (grid_seventeen_le hnum hlow hhigh) (grid_pos hden _)
  simp only [shortest, hratio]
  refine strip_digits_ne_zero 17 ?_
  cases hfound : (List.range 17).findSome? fun (n : Nat) =>
      onGrid? magnitude (size num den - (n + 1 : Nat)) with
  | none => exact Nat.ne_of_gt (Nat.lt_of_lt_of_le hlast (div_le_roundEven _ _))
  | some d =>
    obtain ⟨n, -, hn⟩ := List.exists_of_findSome?_eq_some hfound
    exact onGrid?_digits_ne_zero (Double.parts_bounds hpos htop).1 hn

end Scientific

end Datum
