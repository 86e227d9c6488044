import Datum.Number.Num
import Datum.Proofs.Number.IntegralDoubles
import Mathlib.Data.Prod.Lex

/-!
# The order of all numbers

A number has a place of its own, so that the numbers that callers give are in a total order, NaN
after all others and the negative zero just before the other one. The later of two numbers is their
maximum in this order.
-/

set_option autoImplicit false

namespace Datum

namespace Double

@[irreducible]
def unitsOfOne : Nat := Nat.pow 2 1075

/-- Twice the value of a magnitude, counted in least positive numbers. -/
def units (n : Nat) : Nat := (parts n).1 * 2 ^ ((parts n).2 + 1075).toNat

-- The power is kept behind a variable: the exponent is too great for its value to be computed.
theorem exists_unitsOfOne : ∃ k, k = 1075 ∧ unitsOfOne = Nat.pow 2 k := by
  unfold unitsOfOne
  exact ⟨_, rfl, Eq.refl _⟩

theorem unitsOfOne_pos : 0 < unitsOfOne := by
  obtain ⟨k, -, hone⟩ := exists_unitsOfOne
  rw [hone]
  exact Nat.pow_pos (by decide)

theorem two_dvd_unitsOfOne : 2 ∣ unitsOfOne := by
  obtain ⟨k, hk, hone⟩ := exists_unitsOfOne
  rw [hone]
  exact dvd_pow_self 2 (by omega)

theorem le_parts_exponent (n : Nat) : -1074 ≤ (parts n).2 := by
  unfold parts
  generalize n / implicitBit = exponent
  dsimp only
  split
  · exact Int.le_refl _
  · dsimp only
    omega

theorem units_value (n : Nat) : (units n : ℚ) = magnitudeValue n * unitsOfOne := by
  obtain ⟨k, hk, hone⟩ := exists_unitsOfOne
  have hexponent := le_parts_exponent n
  have hunits : (((parts n).2 + 1075).toNat : Int) = (parts n).2 + (k : Nat) := by omega
  rw [units, magnitudeValue, hone, Nat.pow_eq, Nat.cast_mul, Nat.cast_pow, Nat.cast_pow,
    Nat.cast_ofNat, ← zpow_natCast, hunits, zpow_add₀ two_ne_zero, zpow_natCast, mul_assoc]

theorem units_eq_mul {n k : Nat} : units n = k * unitsOfOne ↔ magnitudeValue n = k := by
  have hone : (unitsOfOne : ℚ) ≠ 0 := Nat.cast_ne_zero.2 unitsOfOne_pos.ne'
  rw [← Nat.cast_inj (R := ℚ), units_value, Nat.cast_mul, mul_left_inj' hone]

theorem units_injective : Function.Injective units := by
  intro m n h
  have hone : (unitsOfOne : ℚ) ≠ 0 := Nat.cast_ne_zero.2 unitsOfOne_pos.ne'
  have hvalue : magnitudeValue m * unitsOfOne = magnitudeValue n * unitsOfOne := by
    rw [← units_value, ← units_value, h]
  exact magnitudeValue_strictMono.injective (mul_right_cancel₀ hone hvalue)

theorem two_dvd_units (n : Nat) : 2 ∣ units n := by
  have hexponent := le_parts_exponent n
  exact Dvd.dvd.mul_left (dvd_pow_self 2 (by omega)) _

theorem units_pos {n : Nat} (h : n ≠ 0) : 0 < units n := by
  have hzero : units 0 = 0 * unitsOfOne := units_eq_mul.2 (by simp)
  refine Nat.pos_of_ne_zero fun hn => h (units_injective ?_)
  rw [hn, hzero, Nat.zero_mul]

theorem two_dvd_signed_units (negative : Bool) (n : Nat) : (2 : Int) ∣ signed negative (units n) := by
  have hdvd : (2 : Int) ∣ (units n : Int) := Int.natCast_dvd_natCast.2 (two_dvd_units n)
  cases negative with
  | false => exact hdvd
  | true => exact Int.dvd_neg.2 hdvd

theorem signed_units_inj {r s : Bool} {m n : Nat} (hm : m ≠ 0)
    (h : signed r (units m) = signed s (units n)) : r = s ∧ m = n := by
  have hpos := units_pos hm
  have hinj := @units_injective m n
  cases r <;> cases s <;> simp only [signed, if_true, if_false, Bool.false_eq_true] at h <;> grind

end Double

namespace Num

open Double

theorem place_int (n : Int) : place (.int n) = (0, n * unitsOfOne) := by
  unfold place unitsOfOne
  exact Eq.refl _

theorem negative_of_proper {negative : Bool} {m : Fin (top + 1)}
    (proper : (Double.number negative m).isProper = true) (hzero : m.val = 0) : negative = true := by
  have hint : (Double.number negative m).toInt? = some 0 :=
    toInt?_eq_some.2 ⟨negative, m, 0, rfl, hzero.trans_ne (by decide),
      by rw [hzero, magnitudeValue_zero, Nat.cast_zero], by cases negative <;> rfl⟩
  rw [Double.isProper, hint, Option.isNone_some, Bool.or_false, beq_iff_eq] at proper
  exact (Double.number.inj proper).1

theorem toInt?_of_proper {negative : Bool} {m : Fin (top + 1)}
    (proper : (Double.number negative m).isProper = true) (hzero : m.val ≠ 0) :
    (Double.number negative m).toInt? = none := by
  rw [Double.isProper, Bool.or_eq_true, beq_iff_eq, Option.isNone_iff_eq_none] at proper
  refine proper.resolve_left fun h => hzero ?_
  rw [(Double.number.inj h).2]
  rfl

/-- The class of a number that is no integer, and its place within the class. -/
inductive Placed (x : Double) (p : Int × Int) : Prop
  | nan (hx : x = .nan) (hp : p = (2, 0))
  | infinite (negative : Bool) (m : Fin (top + 1)) (hx : x = .number negative m)
      (htop : m.val = top) (hp : p = (if negative then -1 else 1, 0))
  | negZero (m : Fin (top + 1)) (hx : x = .number true m) (hzero : m.val = 0) (hp : p = (0, -1))
  | finite (negative : Bool) (m : Fin (top + 1)) (hx : x = .number negative m) (hzero : m.val ≠ 0)
      (htop : m.val ≠ top) (hint : x.toInt? = none)
      (hp : p = (0, signed negative (units m.val)))

theorem placed {x : Double} (proper : x.isProper = true) : Placed x (place (.real x proper)) := by
  cases x with
  | nan => exact .nan rfl rfl
  | number negative m =>
    simp only [place]
    by_cases htop : m.val = top
    · rw [if_pos htop]
      exact .infinite negative m rfl htop rfl
    rw [if_neg htop]
    by_cases hzero : m.val = 0
    · obtain rfl := negative_of_proper proper hzero
      rw [if_pos hzero]
      exact .negZero m rfl hzero rfl
    · rw [if_neg hzero]
      exact .finite negative m rfl hzero htop (toInt?_of_proper proper hzero) rfl

theorem Placed.ne_int {x : Double} {p : Int × Int} (h : Placed x p) (n : Int) :
    p ≠ (0, n * unitsOfOne) := by
  rintro rfl
  cases h with
  | nan hx hp => cases congrArg Prod.fst hp
  | infinite negative m hx htop hp =>
    have hclass := congrArg Prod.fst hp
    cases negative <;> cases hclass
  | negZero m hx hzero hp =>
    have hodd : n * (unitsOfOne : Int) = -1 := congrArg Prod.snd hp
    have heven : (2 : Int) ∣ n * unitsOfOne :=
      Dvd.dvd.mul_left (Int.natCast_dvd_natCast.2 two_dvd_unitsOfOne) n
    omega
  | finite negative m hx hzero htop hint hp =>
    have hunits : n * (unitsOfOne : Int) = signed negative (units m.val) := congrArg Prod.snd hp
    have hmagnitude : units m.val = n.natAbs * unitsOfOne := by
      have habs := congrArg Int.natAbs hunits
      rw [Int.natAbs_mul, Int.natAbs_natCast] at habs
      rw [habs]
      cases negative <;> simp [signed]
    rw [toInt?_eq_some.2 ⟨negative, m, _, hx, htop, units_eq_mul.1 hmagnitude, rfl⟩] at hint
    cases hint

theorem Placed.injective {x y : Double} {p : Int × Int} (hx : Placed x p) (hy : Placed y p) :
    x = y := by
  cases hx with
  | nan hx hp => cases hy <;> grind
  | infinite r a hx htop hp => cases hy <;> grind
  | negZero a hx hzero hp =>
    cases hy with
    | finite s b hy hzero htop hint hq =>
      have heven := two_dvd_signed_units s b.val
      grind
    | _ => grind
  | finite r a hx hzero htop hint hp =>
    cases hy with
    | negZero b hy hzero hq =>
      have heven := two_dvd_signed_units r a.val
      grind
    | finite s b hy hzero' htop' hint' hq =>
      obtain ⟨rfl, hab⟩ := signed_units_inj hzero (congrArg Prod.snd (hp.symm.trans hq))
      rw [hx, hy, Fin.ext hab]
    | _ => grind

theorem place_injective : Function.Injective place := by
  intro x y h
  cases x with
  | int m =>
    cases y with
    | int n =>
      rw [place_int, place_int] at h
      have hone : (unitsOfOne : Int) ≠ 0 := Int.natCast_ne_zero.2 unitsOfOne_pos.ne'
      rw [mul_right_cancel₀ hone (Prod.mk.inj h).2]
    | real y hy =>
      rw [place_int] at h
      exact absurd h.symm ((placed hy).ne_int m)
  | real x hx =>
    cases y with
    | int n =>
      rw [place_int] at h
      exact absurd h ((placed hx).ne_int n)
    | real y hy =>
      have hplaced := placed hx
      rw [h] at hplaced
      obtain rfl := hplaced.injective (placed hy)
      rfl

theorem before_iff {x y : Num} : x.before y = true ↔ toLex x.place < toLex y.place := by
  simp [before, Prod.Lex.toLex_lt_toLex]

theorem not_before_iff {x y : Num} : x.before y = false ↔ toLex y.place ≤ toLex x.place := by
  rw [← Bool.not_eq_true, before_iff, not_lt]

theorem before_int (m n : Int) : (int m).before (int n) = decide (m < n) := by
  have hone : (0 : Int) < unitsOfOne := Int.natCast_pos.2 unitsOfOne_pos
  rw [Bool.eq_iff_iff, before_iff, place_int, place_int, decide_eq_true_eq]
  simpa [Prod.Lex.toLex_lt_toLex] using mul_lt_mul_iff_left₀ hone

theorem max_int (m n : Int) : (int m).max (int n) = .int (if m < n then n else m) := by
  rw [max, before_int]
  by_cases h : m < n <;> simp [h]

theorem place_max (x y : Num) :
    toLex (x.max y).place = Max.max (toLex x.place) (toLex y.place) := by
  unfold max
  split
  next h => exact (max_eq_right (before_iff.1 h).le).symm
  next h => exact (max_eq_left (not_before_iff.1 (Bool.not_eq_true _ ▸ h))).symm

theorem max_cases (x y : Num) : x.max y = x ∨ x.max y = y := by
  unfold max
  split
  · exact .inr rfl
  · exact .inl rfl

structure IsMaximum (ns : List Num) (m : Num) : Prop where
  mem : m ∈ ns
  last : ∀ n ∈ ns, m.before n = false

namespace IsMaximum

variable {ms ns : List Num} {m n : Num}

theorem singleton (n : Num) : IsMaximum [n] n where
  mem := List.mem_singleton_self n
  last k hk := by
    rw [List.mem_singleton.1 hk, not_before_iff]

theorem append (hm : IsMaximum ms m) (hn : IsMaximum ns n) : IsMaximum (ms ++ ns) (m.max n) where
  mem := by
    rcases max_cases m n with heq | heq <;> rw [heq]
    · exact List.mem_append_left ns hm.mem
    · exact List.mem_append_right ms hn.mem
  last k hk := by
    rw [not_before_iff, place_max]
    rcases List.mem_append.1 hk with hk | hk
    · exact le_max_of_le_left (not_before_iff.1 (hm.last k hk))
    · exact le_max_of_le_right (not_before_iff.1 (hn.last k hk))

theorem unique (hperm : ms.Perm ns) (hm : IsMaximum ms m) (hn : IsMaximum ns n) : m = n := by
  have hle : toLex n.place ≤ toLex m.place :=
    not_before_iff.1 (hm.last n (hperm.mem_iff.2 hn.mem))
  have hge : toLex m.place ≤ toLex n.place :=
    not_before_iff.1 (hn.last m (hperm.mem_iff.1 hm.mem))
  exact place_injective (toLex.injective (le_antisymm hge hle))

end IsMaximum

end Num

end Datum
