import Datum.Compare.SameKind
import Datum.Proofs.Calendar.Exact
import Datum.Proofs.Value.Make

/-!
# Instants and local times

A local day and time is one number of nanoseconds from the epoch, and so is an instant; the offset
lies between them. The seconds, days and times of day that conversions compute are quotients and
remainders of these numbers, rounded down also before the epoch.
-/

set_option autoImplicit false

namespace Datum

namespace Calendar

variable {day nanos offset n : Int}

def localNanos (day nanos : Int) : Int := day * nanosPerDay + nanos

/-- The local nanosecond that an offset shows at an instant. -/
def shifted (instant offset : Int) : Int := instant + offset * nanosPerSecond

theorem nanosPerDay_eq : nanosPerDay = 86400000000000 := rfl

theorem utcNanos_eq : Compare.utcNanos day nanos offset
    = localNanos day nanos - offset * nanosPerSecond := rfl

theorem shifted_utcNanos (day nanos offset : Int) :
    shifted (Compare.utcNanos day nanos offset) offset = localNanos day nanos :=
  Int.sub_add_cancel _ _

theorem shifted_inj {p : Int} : shifted n offset = shifted n p ↔ offset = p := by
  simp only [shifted, nanosPerSecond]
  omega

theorem shifted_back {p : Int} : shifted n offset - p * nanosPerSecond = n ↔ p = offset := by
  simp only [shifted, nanosPerSecond]
  omega

theorem localNanos_div_mod (day : Int) (h : IsNanos nanos) :
    localNanos day nanos / nanosPerDay = day ∧ localNanos day nanos % nanosPerDay = nanos := by
  obtain ⟨hzero, hlt⟩ := h
  rw [nanosPerDay_eq] at hlt
  simp only [localNanos, nanosPerDay_eq]
  omega

theorem compare_add_left (n p q : Int) : Ord.compare (n + p) (n + q) = Ord.compare p q := by
  simp only [Int.compare_eq_ite_lt, Int.add_lt_add_iff_left]

theorem compare_sub_right (p q n : Int) : Ord.compare (p - n) (q - n) = Ord.compare p q := by
  rw [Int.sub_eq_add_neg, Int.sub_eq_add_neg, Int.add_comm p, Int.add_comm q, compare_add_left]

theorem compare_localNanos {d e m n : Int} (hm : IsNanos m) (hn : IsNanos n) :
    Ord.compare (localNanos d m) (localNanos e n) = (Ord.compare d e).then (Ord.compare m n) := by
  obtain ⟨hm, hm'⟩ := hm
  obtain ⟨hn, hn'⟩ := hn
  rw [nanosPerDay_eq] at hm' hn'
  simp only [localNanos, nanosPerDay_eq]
  rcases lt_trichotomy d e with h | rfl | h
  · rw [Int.compare_eq_lt.2 h, Int.compare_eq_lt.2 (by omega)]
    rfl
  · rw [compare_add_left, Int.compare_eq_eq.2 rfl]
    rfl
  · rw [Int.compare_eq_gt.2 h, Int.compare_eq_gt.2 (by omega)]
    rfl

theorem localNanos_split (n : Int) : localNanos (n / nanosPerDay) (n % nanosPerDay) = n := by
  simp only [localNanos, nanosPerDay_eq]
  omega

theorem isNanos_mod (n : Int) : IsNanos (n % nanosPerDay) := by
  simp only [IsNanos, nanosPerDay_eq]
  omega

theorem epochSeconds_eq (h : IsNanos nanos) :
    epochSeconds day nanos offset = Compare.utcNanos day nanos offset / nanosPerSecond := by
  have hzero := h.1
  simp only [epochSeconds, Compare.utcNanos, nanosPerDay_eq, nanosPerSecond, secondsPerDay,
    Int.tdiv_eq_ediv_of_nonneg hzero]
  omega

theorem dayOfLocalSeconds_eq (n : Int) :
    dayOfLocalSeconds (n / nanosPerSecond) = Number.round53 (n / nanosPerDay) := by
  have hday : (n / nanosPerSecond).fdiv secondsPerDay = n / nanosPerDay := by
    rw [Int.fdiv_eq_ediv_of_nonneg _ (by decide)]
    simp only [nanosPerDay_eq, nanosPerSecond, secondsPerDay]
    omega
  rw [dayOfLocalSeconds, hday]

theorem nanosOfLocalSeconds_add (n : Int) :
    nanosOfLocalSeconds (n / nanosPerSecond) + n % nanosPerSecond = n % nanosPerDay := by
  rw [nanosOfLocalSeconds, Int.fmod_eq_emod_of_nonneg _ (by decide)]
  simp only [nanosPerDay_eq, nanosPerSecond, secondsPerDay]
  omega

end Calendar

end Datum
