import Datum.Proofs.Number.Shortest
import Mathlib.Algebra.Order.Field.Power
import Mathlib.Data.Int.Log
import Mathlib.Data.Rat.Floor
import Mathlib.Tactic.FieldSimp
import Mathlib.Tactic.Linarith
import Mathlib.Tactic.Positivity
import Mathlib.Tactic.Ring

/-!
# Rounding to a binary format

What a quotient is rounded to depends on its value alone, and does so monotonically. A number that
the format has is kept.
-/

set_option autoImplicit false

namespace Datum.Number

structure IsNearestEven (x : ℚ) (k : Int) : Prop where
  low : k - 1 / 2 ≤ x
  high : x ≤ k + 1 / 2
  tie : |x - k| = 1 / 2 → Even k

namespace IsNearestEven

variable {x y : ℚ} {k l : Int}

theorem mono (hk : IsNearestEven x k) (hl : IsNearestEven y l) (h : x ≤ y) : k ≤ l := by
  by_contra hlt
  have hsucc : (l : ℚ) + 1 ≤ k := by exact_mod_cast not_le.1 hlt
  -- only a tie of two neighbours is left, and both would be even
  have hx : x = k - 1 / 2 := by linarith [hk.low, hl.high]
  have hy : y = l + 1 / 2 := by linarith [hk.low, hl.high]
  have hnext : k = l + 1 := by
    have : (k : ℚ) = l + 1 := by linarith [hk.low, hl.high]
    exact_mod_cast this
  have hkeven := hk.tie (by rw [hx]; norm_num)
  have hleven := hl.tie (by rw [hy]; norm_num)
  rw [hnext, Int.even_add_one] at hkeven
  exact hkeven hleven

theorem unique (hk : IsNearestEven x k) (hl : IsNearestEven x l) : k = l :=
  le_antisymm (hk.mono hl le_rfl) (hl.mono hk le_rfl)

theorem of_lt (h : |x - k| < 1 / 2) : IsNearestEven x k where
  low := by linarith [(abs_lt.1 h).1]
  high := by linarith [(abs_lt.1 h).2]
  tie heq := absurd heq h.ne

theorem of_even (h : |x - k| ≤ 1 / 2) (heven : Even k) : IsNearestEven x k where
  low := by linarith [(abs_le.1 h).1]
  high := by linarith [(abs_le.1 h).2]
  tie _ := heven

theorem intCast (k : Int) : IsNearestEven k k :=
  of_lt (by norm_num)

theorem le (hk : IsNearestEven x k) (h : x ≤ l) : k ≤ l := hk.mono (intCast l) h

theorem ge (hk : IsNearestEven x k) (h : l ≤ x) : l ≤ k := (intCast l).mono hk h

theorem eq_of_eq (hk : IsNearestEven x k) (h : x = l) : k = l :=
  hk.unique (h ▸ intCast l)

end IsNearestEven

theorem roundEven_isNearestEven (num : Nat) {den : Nat} (hden : 0 < den) :
    IsNearestEven (num / den) (roundEven num den : Nat) := by
  have hpos : (0 : ℚ) < den := Nat.cast_pos.2 hden
  have hsplit : (num / den : ℚ) = (num / den : Nat) + (num % den : Nat) / den := by
    have h : (den : ℚ) * (num / den : Nat) + (num % den : Nat) = num := by
      exact_mod_cast Nat.div_add_mod num den
    rw [← h]
    field_simp
  have hrest : (0 : ℚ) ≤ (num % den : Nat) / den := by positivity
  have hbelow : ((num % den : Nat) / den : ℚ) < 1 := by
    rw [div_lt_one hpos]
    exact_mod_cast Nat.mod_lt num hden
  -- the remainder against a half, as it is tested without a division
  have hlow (r : Nat) : (r / den : ℚ) < 1 / 2 ↔ 2 * r < den := by
    rw [div_lt_div_iff₀ hpos two_pos, mul_comm, one_mul]
    exact_mod_cast Iff.rfl
  have hhigh (r : Nat) : (1 / 2 : ℚ) < r / den ↔ den < 2 * r := by
    rw [div_lt_div_iff₀ two_pos hpos, mul_comm _ 2, one_mul]
    exact_mod_cast Iff.rfl
  rw [hsplit]
  simp only [roundEven]
  generalize num / den = q at *
  generalize num % den = r at *
  split
  next hlt =>
    have hr := (hlow r).2 hlt
    refine .of_lt (abs_lt.2 ⟨?_, ?_⟩) <;> push_cast <;> linarith
  split
  next hgt =>
    have hr := (hhigh r).2 hgt
    refine .of_lt (abs_lt.2 ⟨?_, ?_⟩) <;> push_cast <;> linarith
  next hlow' hhigh' =>
    have hr : (r / den : ℚ) = 1 / 2 :=
      le_antisymm (not_lt.1 fun h => hhigh' ((hhigh r).1 h)) (not_lt.1 fun h => hlow' ((hlow r).1 h))
    rw [hr]
    split
    next heven =>
      refine .of_even (abs_le.2 ⟨?_, ?_⟩) (by exact_mod_cast Nat.even_iff.2 heven) <;>
        push_cast <;> linarith
    next hodd =>
      have hsucc : Even (q + 1) := Nat.even_add_one.2 fun h => hodd (Nat.even_iff.1 h)
      refine .of_even (abs_le.2 ⟨?_, ?_⟩) (by exact_mod_cast hsucc) <;> push_cast <;> linarith

theorem scaled_value {base : Nat} (hbase : base ≠ 0) (n : Nat) (e : Int) :
    ((scaled base n e).1 : ℚ) / (scaled base n e).2 = n * (base : ℚ) ^ e := by
  have hne : (base : ℚ) ≠ 0 := Nat.cast_ne_zero.2 hbase
  simp only [scaled, Nat.pow_eq, Nat.cast_mul, Nat.cast_pow]
  rw [mul_div_assoc, ← zpow_natCast, ← zpow_natCast, ← zpow_sub₀ hne]
  congr 2
  omega

theorem scaled_den_pos {base : Nat} (hbase : base ≠ 0) (n : Nat) (e : Int) :
    0 < (scaled base n e).2 :=
  Nat.pow_pos (Nat.pos_of_ne_zero hbase)

theorem div_two_zpow (num den : Nat) (q : Int) :
    (num / den : ℚ) / 2 ^ q =
      (num * Nat.pow 2 (-q).toNat : Nat) / (den * Nat.pow 2 q.toNat : Nat) := by
  have hsplit : (2 : ℚ) ^ q = 2 ^ q.toNat / 2 ^ (-q).toNat := by
    rw [← zpow_natCast, ← zpow_natCast, ← zpow_sub₀ two_ne_zero]
    congr 1
    omega
  rw [hsplit]
  push_cast [Nat.pow_eq]
  field_simp

theorem log_lt_of_bits {bits n : Nat} {p : Int} {x : ℚ} (hpos : 0 < x) (hx : x = n * 2 ^ p)
    (hn : n < 2 ^ bits) : Int.log 2 x < bits + p := by
  refine (Int.lt_zpow_iff_log_lt one_lt_two hpos).1 ?_
  rw [hx, Nat.cast_ofNat, zpow_add₀ two_ne_zero, zpow_natCast]
  exact mul_lt_mul_of_pos_right (by exact_mod_cast hn) (by positivity)

theorem floorLog2_eq {num den : Nat} (hnum : num ≠ 0) (hden : den ≠ 0) :
    floorLog2 num den = Int.log 2 (num / den : ℚ) := by
  have hx : (0 : ℚ) < num / den := by positivity
  have hone {q : Int} : (2 : ℚ) ^ q ≤ num / den ↔
      den * Nat.pow 2 q.toNat ≤ num * Nat.pow 2 (-q).toNat := by
    have hpos : 0 < den * Nat.pow 2 q.toNat :=
      Nat.mul_pos (Nat.pos_of_ne_zero hden) (Nat.two_pow_pos _)
    rw [← one_le_div₀ (by positivity), div_two_zpow, one_le_div₀ (Nat.cast_pos.2 hpos), Nat.cast_le]
  have hlow : (2 : ℚ) ^ floorLog2 num den ≤ num / den := hone.2 (two_pow_floorLog2_le hnum)
  have hhigh : (num / den : ℚ) < 2 ^ (floorLog2 num den + 1) := by
    rw [← not_le, hone]
    simp only [floorLog2]
    split
    next hbelow =>
      rw [Int.sub_add_cancel]
      exact Nat.not_le.2 hbelow
    next =>
      have hnumhigh : num < 2 ^ (num.log2 + 1) := Nat.lt_log2_self
      have hdenlow : 2 ^ den.log2 ≤ den := Nat.log2_self_le hden
      -- the exponents stay behind variables, of which one is zero
      obtain ⟨a, ha⟩ : ∃ a, ((num.log2 : Int) - den.log2 + 1).toNat = a := ⟨_, rfl⟩
      obtain ⟨b, hb⟩ : ∃ b, (-((num.log2 : Int) - den.log2 + 1)).toNat = b := ⟨_, rfl⟩
      rw [ha, hb]
      refine Nat.not_le.2 ?_
      calc
        num * 2 ^ b < 2 ^ (num.log2 + 1) * 2 ^ b :=
          Nat.mul_lt_mul_of_pos_right hnumhigh (Nat.two_pow_pos b)
        _ = 2 ^ den.log2 * 2 ^ a := by
          rw [← Nat.pow_add, ← Nat.pow_add]
          congr 1
          omega
        _ ≤ den * 2 ^ a := Nat.mul_le_mul_right _ hdenlow
  refine le_antisymm ((Int.zpow_le_iff_le_log one_lt_two hx).1 ?_) (Int.lt_add_one_iff.1 ?_)
  · exact_mod_cast hlow
  · exact (Int.lt_zpow_iff_log_lt one_lt_two hx).1 (by exact_mod_cast hhigh)

/-- A positive number is rounded to `m * 2 ^ q` in a format with a width and a least exponent. -/
structure RoundsTo (bits : Nat) (least : Int) (x : ℚ) (m : Nat) (q : Int) : Prop where
  pos : 0 < x
  unit : q = max least (Int.log 2 x - (bits - 1 : Nat))
  nearest : IsNearestEven (x / 2 ^ q) m

theorem roundBinary_roundsTo {num den : Nat} (bits : Nat) (least : Int) (hnum : num ≠ 0)
    (hden : den ≠ 0) :
    RoundsTo bits least (num / den) (roundBinary bits least num den).1
      (roundBinary bits least num den).2 where
  pos := by positivity
  unit := by
    rw [roundBinary, floorLog2_eq hnum hden]
  nearest := by
    simp only [roundBinary]
    rw [div_two_zpow]
    exact roundEven_isNearestEven _ (Nat.mul_pos (Nat.pos_of_ne_zero hden) (Nat.two_pow_pos _))

namespace RoundsTo

variable {bits m n : Nat} {least p q : Int} {x y : ℚ}

theorem least_le (h : RoundsTo bits least x m q) : least ≤ q := h.unit ▸ le_max_left _ _

theorem le_two_pow (h : RoundsTo bits least x m q) (hbits : 0 < bits) : m ≤ 2 ^ bits := by
  have hx := Int.lt_zpow_succ_log_self one_lt_two x
  have hq : Int.log 2 x + 1 ≤ q + bits := by
    have := h.unit ▸ le_max_right least (Int.log 2 x - (bits - 1 : Nat))
    omega
  have hle : x / 2 ^ q ≤ ((2 ^ bits : Nat) : Int) := by
    rw [div_le_iff₀ (by positivity)]
    calc
      x ≤ 2 ^ (Int.log 2 x + 1) := by exact_mod_cast hx.le
      _ ≤ 2 ^ (q + bits) := zpow_le_zpow_right₀ one_le_two hq
      _ = ((2 ^ bits : Nat) : Int) * 2 ^ q := by
        rw [zpow_add₀ two_ne_zero, zpow_natCast, mul_comm]
        push_cast
        rfl
  exact_mod_cast h.nearest.le hle

/-- Above the least exponent the significand has all of its bits. -/
theorem two_pow_le (h : RoundsTo bits least x m q) (hlt : least < q) : 2 ^ (bits - 1) ≤ m := by
  have hq : q = Int.log 2 x - (bits - 1 : Nat) := by
    have := h.unit
    omega
  have hx : (2 : ℚ) ^ Int.log 2 x ≤ x := by
    exact_mod_cast Int.zpow_log_le_self one_lt_two h.pos
  have hle : (((2 ^ (bits - 1) : Nat) : Int) : ℚ) ≤ x / 2 ^ q := by
    rw [le_div_iff₀ (by positivity)]
    calc
      (((2 ^ (bits - 1) : Nat) : Int) : ℚ) * 2 ^ q = 2 ^ Int.log 2 x := by
        rw [hq]
        push_cast
        rw [← zpow_natCast, ← zpow_add₀ two_ne_zero]
        congr 1
        omega
      _ ≤ x := hx
  exact_mod_cast h.nearest.ge hle

theorem mono (hbits : 0 < bits) (hx : RoundsTo bits least x m p) (hy : RoundsTo bits least y n q)
    (h : x ≤ y) : (m : ℚ) * 2 ^ p ≤ n * 2 ^ q := by
  have hlog : Int.log 2 x ≤ Int.log 2 y := Int.log_mono_right hx.pos h
  have hpq : p ≤ q := by
    rw [hx.unit, hy.unit]
    omega
  -- in the higher unit a significand has all of its bits, and none in the lower is above that
  rcases hpq.lt_or_eq with hlt | rfl
  · have hm : (m : ℚ) ≤ 2 ^ bits := by exact_mod_cast hx.le_two_pow hbits
    have hn : (2 : ℚ) ^ (bits - 1) ≤ n := by
      exact_mod_cast hy.two_pow_le (lt_of_le_of_lt hx.least_le hlt)
    calc
      (m : ℚ) * 2 ^ p ≤ 2 ^ bits * 2 ^ p := by gcongr
      _ = 2 ^ ((bits : Int) + p) := by rw [zpow_add₀ two_ne_zero, zpow_natCast]
      _ ≤ 2 ^ (((bits - 1 : Nat) : Int) + q) := zpow_le_zpow_right₀ one_le_two (by omega)
      _ = 2 ^ (bits - 1) * 2 ^ q := by rw [zpow_add₀ two_ne_zero, zpow_natCast]
      _ ≤ n * 2 ^ q := by gcongr
  · have hmn : (m : Int) ≤ n :=
      hx.nearest.mono hy.nearest (div_le_div_of_nonneg_right h (by positivity))
    have hmn' : (m : ℚ) ≤ n := by exact_mod_cast hmn
    gcongr

theorem exact (h : RoundsTo bits least x m q) (hx : x = n * 2 ^ p) (hn : n < 2 ^ bits)
    (hp : least ≤ p) : (m : ℚ) * 2 ^ q = x := by
  have hlog := log_lt_of_bits h.pos hx hn
  have hqp : q ≤ p := by
    rw [h.unit]
    omega
  have hunits : x / 2 ^ q = ((n * 2 ^ (p - q).toNat : Nat) : Int) := by
    rw [hx, mul_div_assoc, ← zpow_sub₀ two_ne_zero]
    push_cast
    rw [← zpow_natCast, Int.toNat_of_nonneg (Int.sub_nonneg_of_le hqp)]
  have hm := h.nearest.eq_of_eq hunits
  rw [Int.natCast_inj.1 hm, ← div_mul_cancel₀ x (by positivity : (2 : ℚ) ^ q ≠ 0), hunits]
  push_cast
  rfl

end RoundsTo

end Datum.Number
