import Datum.Compare
import Datum.Proofs.Calendar.Instants

/-!
# Instants in milliseconds

A count of milliseconds from the epoch becomes a zoned timestamp at any offset. Its local day and
time of day are the quotient and the remainder of the local time, rounded down also before the
epoch, so that the timestamp lies at the very instant that was counted. So the order of counts is
the order of timestamps, whatever the offsets.
-/

set_option autoImplicit false

namespace Datum

namespace Calendar

def nanosOfMillis (ms : Int) : Int := ms * 1000000

variable {ms o : Int}

theorem shifted_millis_div (ms o : Int) :
    shifted (nanosOfMillis ms) o / nanosPerSecond = ms.fdiv 1000 + o := by
  rw [Int.fdiv_eq_ediv_of_nonneg _ (by decide)]
  simp only [shifted, nanosOfMillis, nanosPerSecond]
  omega

theorem shifted_millis_mod (ms o : Int) :
    shifted (nanosOfMillis ms) o % nanosPerSecond = ms.fmod 1000 * 1000000 := by
  rw [Int.fmod_eq_emod_of_nonneg _ (by decide)]
  simp only [shifted, nanosOfMillis, nanosPerSecond]
  omega

/-- The local day of a safe count of milliseconds is far from where days are refused. -/
theorem isSafe_millis_day (hms : Num.isSafe ms = true) (ho : IsOffset o) :
    Num.isSafe (shifted (nanosOfMillis ms) o / nanosPerDay) = true := by
  have hoffset := ho.natAbs_le
  rw [Num.isSafe_iff] at hms ⊢
  simp only [shifted, nanosOfMillis, nanosPerSecond, nanosPerDay_eq]
  omega

theorem compare_nanosOfMillis (m n : Int) :
    Ord.compare (nanosOfMillis m) (nanosOfMillis n) = Ord.compare m n := by
  have hpos : (0 : Int) < 1000000 := by decide
  simp only [Int.compare_eq_ite_lt, nanosOfMillis, Int.mul_lt_mul_right hpos]

end Calendar

open Calendar
open Compare (typeSafe utcNanos)

namespace Value

theorem exactInt_toNum (n : Whole) : exactInt n.toNum = .ok n.val := by
  rw [exactInt, n.toInt?_toNum]

theorem exactFloor_toNum (n : Whole) : exactFloor n.toNum = .ok n.val := by
  cases n with
  | int n => rfl
  | minusZero =>
    have hzero : Double.negZero.floor? = some 0 := by decide +kernel
    simp only [Whole.toNum, Num.negZero, exactFloor, hzero, Whole.val]

def timestampTzAt (instant : Int) (o : Whole) : Value :=
  .timestampTz (.int (shifted instant o.val / nanosPerDay)) (shifted instant o.val % nanosPerDay) o

theorem utcNanos_timestampTzAt (instant o : Int) :
    utcNanos (shifted instant o / nanosPerDay) (shifted instant o % nanosPerDay) o = instant := by
  rw [utcNanos_eq, localNanos_split, shifted, Int.add_sub_cancel]

theorem typeSafe_timestampTzAt (s : Session) (m n : Int) (o p : Whole) :
    typeSafe s (timestampTzAt m o) (timestampTzAt n p) =
      .ok ((Ord.compare m n).then (Ord.compare p.val o.val)) := by
  simp only [typeSafe, timestampTzAt, Compare.sameKind, Compare.instantOrder, Whole.val_int,
    utcNanos_timestampTzAt]

variable {ms o : Whole}

theorem ofEpochMillis_eq (hms : Num.isSafe ms.val = true) (ho : IsOffset o.val) :
    ofEpochMillis ms.toNum o.toNum = .ok (timestampTzAt (nanosOfMillis ms.val) o) := by
  have hsafe := isSafe_millis_day hms ho
  simp only [ofEpochMillis, exactFloor_toNum, exactInt_toNum, ok_bind]
  rw [← shifted_millis_div, ← shifted_millis_mod ms.val o.val, dayOfLocalSeconds_eq,
    nanosOfLocalSeconds_add, Num.round53_of_isSafe hsafe]
  exact ofTimestampTz_eq_ok.2 ⟨_, o, rfl, o.ofNum?_toNum, ⟨hsafe, isNanos_mod _, ho⟩, rfl⟩

/-- Milliseconds from the epoch that are a safe integer make a timestamp at every valid offset. It
is seen at this offset, its time lies within the day, and its instant is the one that was counted.
Two such timestamps are in the order of their counts and only of equal ones in that of the offsets,
so that the earlier one comes first at whatever offsets they are seen. -/
theorem ofEpochMillis_instant (hms : Num.isSafe ms.val = true) (ho : IsOffset o.val) :
    (∃ day nanos, ofEpochMillis ms.toNum o.toNum = .ok (.timestampTz (.int day) nanos o) ∧
      0 ≤ nanos ∧ nanos < nanosPerDay ∧
      day * nanosPerDay + nanos - o.val * nanosPerSecond = ms.val * 1000000) ∧
    ∀ (other p : Whole) (s : Session), Num.isSafe other.val = true → IsOffset p.val →
      ∃ v w, ofEpochMillis ms.toNum o.toNum = .ok v ∧ ofEpochMillis other.toNum p.toNum = .ok w ∧
        typeSafe s v w =
          .ok ((Ord.compare ms.val other.val).then (Ord.compare p.val o.val)) ∧
        (ms.val < other.val → typeSafe s v w = .ok .lt) := by
  refine ⟨?_, fun other p s hother hp => ?_⟩
  · obtain ⟨hzero, hlt⟩ := isNanos_mod (shifted (nanosOfMillis ms.val) o.val)
    exact ⟨_, _, ofEpochMillis_eq hms ho, hzero, hlt, utcNanos_timestampTzAt _ _⟩
  · have horder := typeSafe_timestampTzAt s (nanosOfMillis ms.val) (nanosOfMillis other.val) o p
    rw [compare_nanosOfMillis] at horder
    refine ⟨_, _, ofEpochMillis_eq hms ho, ofEpochMillis_eq hother hp, horder, fun hlt => ?_⟩
    rw [horder, Int.compare_eq_lt.2 hlt]
    rfl

/-- The last millisecond before the epoch is seen on the day before it or on the day of the epoch,
and comes before the epoch at either offset. -/
theorem ofEpochMillis_instant_of_last_before_epoch :
    let s : Session := .system 0 0
    let v : Value := .timestampTz (.int (-1)) 82799999000000 (.int (-3600))
    let w : Value := .timestampTz (.int 0) 3599999000000 (.int 3600)
    let x : Value := .timestampTz (.int (-1)) 21600000000000 (.int (-64800))
    Num.isSafe (-1) = true ∧ Num.isSafe 0 = true ∧ IsOffset (-3600) ∧ IsOffset 3600 ∧
      IsOffset (-64800) ∧ ofEpochMillis (.int (-1)) (.int (-3600)) = .ok v ∧
      ofEpochMillis (.int (-1)) (.int 3600) = .ok w ∧
      ofEpochMillis (.int 0) (.int (-64800)) = .ok x ∧
      typeSafe s v x = .ok .lt ∧ typeSafe s w x = .ok .lt := by
  intro s v w x
  have hms : Num.isSafe (Whole.int (-1)).val = true := by decide
  have hwest : IsOffset (Whole.int (-3600)).val := by decide
  have heast : IsOffset (Whole.int 3600).val := by decide
  have hfar : IsOffset (Whole.int (-64800)).val := by decide
  have hv : ofEpochMillis (.int (-1)) (.int (-3600)) = .ok v := by rfl
  have hw : ofEpochMillis (.int (-1)) (.int 3600) = .ok w := by rfl
  have hx : ofEpochMillis (.int 0) (.int (-64800)) = .ok x := by rfl
  have before {o : Whole} {u : Value} (ho : IsOffset o.val)
      (hu : ofEpochMillis (.int (-1)) o.toNum = .ok u) : typeSafe s u x = .ok .lt := by
    obtain ⟨-, horder⟩ := ofEpochMillis_instant hms ho
    obtain ⟨u', x', hu', hx', -, hlt⟩ := horder (.int 0) (.int (-64800)) s (by decide) hfar
    obtain rfl := Except.ok.inj (hu.symm.trans hu')
    obtain rfl := Except.ok.inj (hx.symm.trans hx')
    exact hlt (by decide)
  exact ⟨hms, by decide, hwest, heast, hfar, hv, hw, hx, before hwest hv, before heast hw⟩

end Value

end Datum
