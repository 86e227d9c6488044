import Datum.Bytes
import Mathlib.Data.List.Induction
import Mathlib.Tactic.NormNum
import Mathlib.Tactic.Ring

/-!
# Words of bytes

Bytes are the digits of a number in base 256, so that writing a number in as many bytes as it was
read from gives them back. In two's complement the same holds for the integers of which the absolute
value is at most half of what the bytes can count.
-/

set_option autoImplicit false

namespace Datum.Bytes

theorem length_ofNat (width n : Nat) : (ofNat width n).length = width := by
  induction width generalizing n with
  | zero => rfl
  | succ width ih => simp [ofNat, ih]

theorem toNat_concat (b : Bytes) (x : UInt8) : toNat (b ++ [x]) = toNat b * 256 + x.toNat := by
  simp [toNat, List.foldl_append]

theorem toNat_ofNat (width n : Nat) : toNat (ofNat width n) = n % 256 ^ width := by
  induction width generalizing n with
  | zero => simp [ofNat, toNat, Nat.mod_one]
  | succ width ih =>
    rw [ofNat, toNat_concat, ih, pow_succ, Nat.mul_comm (256 ^ width), Nat.mod_mul]
    simp only [Nat.toUInt8_eq, UInt8.toNat_ofNat']
    ring

theorem toNat_lt (b : Bytes) : toNat b < 256 ^ b.length := by
  induction b using List.reverseRecOn with
  | nil => simp [toNat]
  | append_singleton b x ih =>
    have hx := x.toNat_lt
    rw [toNat_concat, List.length_append, List.length_singleton, pow_succ]
    omega

theorem ofNat_toNat (b : Bytes) : ofNat b.length (toNat b) = b := by
  induction b using List.reverseRecOn with
  | nil => rfl
  | append_singleton b x ih =>
    have hx := x.toNat_lt
    have hhigh : (toNat b * 256 + x.toNat) / 256 = toNat b := by omega
    have hlow : (toNat b * 256 + x.toNat).toUInt8 = x := by
      rw [← UInt8.toNat_inj, Nat.toUInt8_eq, UInt8.toNat_ofNat']
      omega
    rw [toNat_concat, List.length_append, List.length_singleton, ofNat, hhigh, hlow, ih]

theorem length_ofSigned (width : Nat) (n : Int) : (ofSigned width n).length = width :=
  length_ofNat _ _

theorem toNat_ofSigned (width : Nat) (n : Int) :
    (toNat (ofSigned width n) : Int) = n % (256 ^ width : Nat) := by
  have hpos : 0 < 256 ^ width := Nat.pow_pos (by norm_num)
  have hnonneg : 0 ≤ n % (256 ^ width : Nat) := Int.emod_nonneg n (by omega)
  have hlt : n % (256 ^ width : Nat) < (256 ^ width : Nat) := Int.emod_lt_of_pos n (by omega)
  have hbytes : ofSigned width n = ofNat width (n % (256 ^ width : Nat)).toNat := rfl
  rw [hbytes, toNat_ofNat, Nat.mod_eq_of_lt (by omega), Int.toNat_of_nonneg hnonneg]

theorem toSigned_ofSigned (width : Nat) (n : Int) :
    toSigned (ofSigned width n) = n.bmod (256 ^ width) := by
  rw [toSigned, length_ofSigned, toNat_ofSigned, Nat.pow_eq]
  exact Int.emod_bmod n _

theorem ofSigned_toSigned (b : Bytes) : ofSigned b.length (toSigned b) = b := by
  have hread : toSigned b % (256 ^ b.length : Nat) = toNat b := by
    have hlt := toNat_lt b
    change Int.bmod (toNat b) (256 ^ b.length) % _ = _
    rw [Int.bmod_emod, Int.emod_eq_of_lt (by omega) (by omega)]
  have hbytes : ofSigned b.length (toSigned b) =
      ofNat b.length (toSigned b % (256 ^ b.length : Nat)).toNat := rfl
  rw [hbytes, hread, Int.toNat_natCast, ofNat_toNat]

end Datum.Bytes
