import Datum.Calendar
import Datum.Proofs.Number.Rounding
import Datum.Proofs.Text.Digits

/-!
# Exact steps of the calendar

Within 53 bits no step of the calendar rounds, and a quotient of natural numbers is their quotient.
Small numbers are padded to two digits.
-/

set_option autoImplicit false

namespace Datum

open Text (digitUnit digitsValue)

namespace Calendar

variable {m n : Int}

theorem sum_of_le (h : (m + n).natAbs ≤ 0x20000000000000) : sum m n = m + n :=
  Number.round53_of_le h

theorem diff_of_le (h : (m - n).natAbs ≤ 0x20000000000000) : diff m n = m - n :=
  Number.round53_of_le h

theorem times_of_le (h : (m * n).natAbs ≤ 0x20000000000000) : times m n = m * n :=
  Number.round53_of_le h

theorem floorQuotient_of_le (h : n.natAbs ≤ 0x20000000000000) (d : Nat) :
    floorQuotient n d = n / (d : Int) := by
  rw [floorQuotient, if_pos h, Int.fdiv_eq_ediv_of_nonneg _ (Int.natCast_nonneg d)]

theorem floorQuotient_natCast {n : Nat} (h : n ≤ 0x20000000000000) (d : Nat) :
    floorQuotient n d = (n / d : Nat) := by
  rw [floorQuotient_of_le (by omega), Int.natCast_ediv]

theorem padded_natCast (width : Nat) {n : Nat} (h : n < 0x20000000000000) :
    padded width n = Text.padZeros width (Text.ofNat n) := by
  have hsafe : Num.isSafe n = true := by
    simp only [Num.isSafe, Bool.and_eq_true, decide_eq_true_eq]
    unfold Num.maxSafe
    omega
  have hsign : ¬(n : Int) < 0 := by omega
  simp only [padded, Num.text, hsafe, if_true, Text.ofInt, if_neg hsign, Int.natAbs_natCast]

end Calendar

namespace Text

def twoDigits (n : Nat) : Text := [digitUnit (n / 10), digitUnit (n % 10)]

theorem padZeros_two {n : Nat} (h : n < 100) : padZeros 2 (ofNat n) = twoDigits n := by
  revert n
  decide +kernel

theorem twoDigits_isDigit {n : Nat} (h : n < 100) : ∀ u ∈ twoDigits n, isDigit u = true := by
  intro u hu
  rcases List.mem_cons.1 hu with rfl | hu
  · exact isDigit_digitUnit (by omega)
  · rw [List.mem_singleton.1 hu]
    exact isDigit_digitUnit (by omega)

theorem digitsValue_twoDigits {n : Nat} (h : n < 100) : digitsValue (twoDigits n) = n := by
  rw [← padZeros_two h, digitsValue_padZeros, digitsValue_ofNat]

end Text

theorem Calendar.padded_two {n : Nat} (h : n < 100) : padded 2 n = Text.twoDigits n := by
  rw [padded_natCast 2 (by omega), Text.padZeros_two h]

end Datum
