import Datum.Proofs.Calendar.Instants
import Datum.Proofs.Calendar.Times
import Datum.Proofs.Compare.ColumnOrder
import Datum.Value.Adjust

/-!
# Times rounded to a scale

The unit of the last digit divides a second and so a day. To round a timestamp within its day, with
a carry, is to round its local nanoseconds to the nearest multiple of the unit, and since offsets
are whole seconds also those of its instant. A time of day rounds in the same way but stays within
the day. What the result is, whether it changes and how it compares follow from that.
-/

set_option autoImplicit false

namespace Datum

namespace Number

/-- The multiple of a unit that is nearest to an integer, the later one of two. -/
structure IsNearestMultiple (unit n r : Int) : Prop where
  dvd : unit ∣ r
  notLate : 2 * (r - n) ≤ unit
  notEarly : 2 * (n - r) < unit

namespace IsNearestMultiple

variable {unit m n r t : Int}

theorem mono (hm : IsNearestMultiple unit m r) (hn : IsNearestMultiple unit n t) (h : m ≤ n) :
    r ≤ t := by
  obtain ⟨hdvd, hlate, hearly⟩ := hm
  obtain ⟨hdvd', hlate', hearly'⟩ := hn
  by_contra hlt
  -- two multiples of which one is greater are a unit apart, which is too much for both
  have happart : unit ≤ r - t := Int.le_of_dvd (by omega) (Int.dvd_sub hdvd hdvd')
  omega

theorem unique (hr : IsNearestMultiple unit n r) (ht : IsNearestMultiple unit n t) : r = t :=
  Int.le_antisymm (hr.mono ht (Int.le_refl n)) (ht.mono hr (Int.le_refl n))

theorem self (hunit : 0 < unit) (h : unit ∣ n) : IsNearestMultiple unit n n :=
  ⟨h, by omega, by omega⟩

theorem add_left {k : Int} (hk : unit ∣ k) (h : IsNearestMultiple unit n r) :
    IsNearestMultiple unit (k + n) (k + r) := by
  obtain ⟨hdvd, hlate, hearly⟩ := h
  exact ⟨Int.dvd_add hk hdvd, by omega, by omega⟩

theorem div_le {k : Int} (h : IsNearestMultiple unit n r) (hk : unit ∣ k) (hpos : 0 < k) :
    n / k ≤ r / k := by
  have hunit : 0 < unit := by
    obtain ⟨-, hlate, hearly⟩ := h
    omega
  have hbase : unit ∣ n / k * k := Dvd.dvd.mul_left hk _
  exact (Int.le_ediv_iff_mul_le hpos).2 ((self hunit hbase).mono h (Int.ediv_mul_le n (by omega)))

end IsNearestMultiple

end Number

open Calendar (localNanos fractionDigits)
open Number (IsNearestMultiple)

namespace Value

variable {n day nanos offset : Int} {scale : Nat}

theorem fractionUnit_eq (scale : Nat) : fractionUnit scale = 10 ^ (9 - scale) := by
  rw [fractionUnit, Nat.pow_eq]
  push_cast
  rfl

theorem fractionUnit_pos (scale : Nat) : 0 < fractionUnit scale := by
  rw [fractionUnit_eq]
  exact Int.pow_pos (by decide)

theorem fractionUnit_dvd_second (scale : Nat) : fractionUnit scale ∣ nanosPerSecond := by
  rw [fractionUnit_eq]
  exact pow_dvd_pow (10 : Int) (Nat.sub_le 9 scale)

theorem fractionUnit_dvd_day (scale : Nat) : fractionUnit scale ∣ nanosPerDay :=
  Int.dvd_trans (fractionUnit_dvd_second scale) ⟨86400, rfl⟩

theorem digitsValue_fractionDigits_mod {f : Nat} (hf : f < 1000000000) (hne : f ≠ 0) :
    Text.digitsValue (fractionDigits f) % 10 ≠ 0 := by
  obtain ⟨hleast, -⟩ := Calendar.fractionDigits_length hf hne
  have hlast := List.head?_dropWhile_not (· == Text.unit '0')
    (Text.padZeros 9 (Text.ofInt f)).reverse
  cases hdigits : fractionDigits f using List.reverseRecOn with
  | nil =>
    rw [hdigits] at hleast
    simp at hleast
  | append_singleton s u _ =>
    have hdigit : Text.isDigit u = true :=
      Calendar.fractionDigits_isDigit f u (by simp [hdigits])
    have hzero : u ≠ Text.unit '0' := by
      rw [← List.getLast?_reverse, ← fractionDigits, hdigits] at hlast
      simpa using hlast
    have hvalue : Text.digitValue u ≠ 0 ∧ Text.digitValue u < 10 := by
      simp only [Text.isDigit, Bool.and_eq_true, decide_eq_true_eq] at hdigit
      have hne : u.toNat ≠ 48 := fun h => hzero (UInt16.toNat_inj.1 h)
      unfold Text.digitValue
      omega
    rw [Text.digitsValue_append]
    have hsingle : Text.digitsValue [u] = Text.digitValue u := by simp [Text.digitsValue]
    rw [hsingle, List.length_singleton, Nat.pow_one]
    omega

theorem fractionDigits_length_le_iff {f : Nat} (hf : f < 1000000000) (hne : f ≠ 0) :
    (fractionDigits f).length ≤ scale ↔ 10 ^ (9 - scale) ∣ f := by
  obtain ⟨-, hmost⟩ := Calendar.fractionDigits_length hf hne
  have hvalue := Calendar.digitsValue_nine f
  rw [← Calendar.fractionDigits_append hf, Text.digitsValue_append, Text.digitsValue_zeros,
    Nat.add_zero, List.length_replicate] at hvalue
  constructor
  · intro hle
    rw [← hvalue]
    exact Nat.dvd_mul_left_of_dvd (Nat.pow_dvd_pow 10 (by omega)) _
  · intro hdvd
    by_contra hgt
    -- the digits would have one more zero at the end
    have hpow : 10 * 10 ^ (9 - (fractionDigits f).length) ∣ 10 ^ (9 - scale) := by
      rw [← Nat.pow_succ']
      exact Nat.pow_dvd_pow 10 (by omega)
    have hpos : 0 < 10 ^ (9 - (fractionDigits f).length) := Nat.pow_pos (by decide)
    have hten : 10 * 10 ^ (9 - (fractionDigits f).length) ∣
        Text.digitsValue (fractionDigits f) * 10 ^ (9 - (fractionDigits f).length) := by
      rw [hvalue]
      exact hpow.trans hdvd
    have hzero := Nat.mod_eq_zero_of_dvd (Nat.dvd_of_mul_dvd_mul_right hpos hten)
    exact digitsValue_fractionDigits_mod hf hne hzero

theorem fractionScale_le_iff (h : 0 ≤ n) : fractionScale n ≤ scale ↔ fractionUnit scale ∣ n := by
  have hfraction : fractionUnit scale ∣ n ↔ fractionUnit scale ∣ n % nanosPerSecond := by
    conv_lhs => rw [← Int.emod_add_mul_ediv n nanosPerSecond]
    exact dvd_add_left (Dvd.dvd.mul_right (fractionUnit_dvd_second scale) _)
  obtain ⟨f, hf⟩ := Int.eq_ofNat_of_zero_le
    (Int.emod_nonneg n (show nanosPerSecond ≠ 0 by decide))
  have hlt := Int.emod_lt_of_pos n (show 0 < nanosPerSecond by decide)
  rw [hf, nanosPerSecond] at hlt
  rw [fractionScale, Int.tmod_eq_emod_of_nonneg h, hfraction, hf, fractionUnit,
    Int.natCast_dvd_natCast, Nat.pow_eq]
  by_cases hzero : f = 0
  · simp [hzero]
  · have hne : ¬(f : Int) = 0 := by exact_mod_cast hzero
    rw [if_neg hne]
    exact fractionDigits_length_le_iff (by exact_mod_cast hlt) hzero

theorem roundNanos_isNearest (h : 0 ≤ n) (scale : Nat) :
    IsNearestMultiple (fractionUnit scale) n (roundNanos n scale) := by
  have hunit := fractionUnit_pos scale
  have hrest := Int.emod_lt_of_pos n hunit
  have hbase : fractionUnit scale ∣ n - n % fractionUnit scale := Int.dvd_self_sub_emod
  simp only [roundNanos, Int.tmod_eq_emod_of_nonneg h]
  split
  · exact ⟨Int.dvd_add hbase (Int.dvd_refl _), by omega, by omega⟩
  · have hnonneg := Int.emod_nonneg n (Int.ne_of_gt hunit)
    exact ⟨hbase, by omega, by omega⟩

theorem roundNanos_of_dvd (h : 0 ≤ n) (hdvd : fractionUnit scale ∣ n) :
    roundNanos n scale = n :=
  (roundNanos_isNearest h scale).unique (.self (fractionUnit_pos scale) hdvd)

theorem roundNanos_bounds (h : IsNanos n) (scale : Nat) :
    0 ≤ roundNanos n scale ∧ roundNanos n scale ≤ nanosPerDay := by
  have hround := roundNanos_isNearest h.1 scale
  have hunit := fractionUnit_pos scale
  exact ⟨(IsNearestMultiple.self hunit (Int.dvd_zero _)).mono hround h.1,
    hround.mono (.self hunit (fractionUnit_dvd_day scale)) (Int.le_of_lt h.2)⟩

/-- A time that rounds to the end of the day stays at the last multiple within it. -/
theorem roundTime_eq_min (h : IsNanos n) (scale : Nat) :
    roundTime n scale = min (roundNanos n scale) (nanosPerDay - fractionUnit scale) := by
  have hunit := fractionUnit_pos scale
  have hapart := Int.dvd_sub (fractionUnit_dvd_day scale) (roundNanos_isNearest h.1 scale).dvd
  obtain ⟨-, hle⟩ := roundNanos_bounds h scale
  simp only [roundTime]
  split
  next => omega
  next hlt =>
    have hlast := Int.le_of_dvd (by omega) hapart
    omega

theorem fractionUnit_dvd_min (h : fractionUnit scale ∣ n) :
    fractionUnit scale ∣ min n (nanosPerDay - fractionUnit scale) := by
  rcases Int.le_total n (nanosPerDay - fractionUnit scale) with hle | hle
  · rw [Int.min_eq_left hle]
    exact h
  · rw [Int.min_eq_right hle]
    exact Int.dvd_sub (fractionUnit_dvd_day scale) (Int.dvd_refl _)

theorem isNanos_roundTime (h : IsNanos n) (scale : Nat) : IsNanos (roundTime n scale) := by
  have hunit := fractionUnit_pos scale
  have hle := Int.le_of_dvd (by decide) (fractionUnit_dvd_day scale)
  have hbounds := roundNanos_bounds h scale
  rw [roundTime_eq_min h]
  unfold IsNanos
  omega

theorem isNanos_roundDayTime (day : Whole) (h : IsNanos n) (scale : Nat) :
    IsNanos (roundDayTime day n scale).2 := by
  obtain ⟨hlow, hhigh⟩ := roundNanos_bounds h scale
  have hpos : 0 < nanosPerDay := by decide
  unfold IsNanos
  simp only [roundDayTime]
  split <;> dsimp only <;> omega

theorem localNanos_roundDayTime (day : Whole) (n : Int) (scale : Nat) :
    localNanos (roundDayTime day n scale).1.val (roundDayTime day n scale).2 =
      localNanos day.val (roundNanos n scale) := by
  simp only [roundDayTime, localNanos]
  split
  · rw [Whole.val_int, add_one_mul]
    omega
  · rfl

theorem roundDayTime_isNearest (day : Whole) (h : 0 ≤ n) (scale : Nat) :
    IsNearestMultiple (fractionUnit scale) (localNanos day.val n)
      (localNanos (roundDayTime day n scale).1.val (roundDayTime day n scale).2) := by
  rw [localNanos_roundDayTime]
  exact (roundNanos_isNearest h scale).add_left
    (Dvd.dvd.mul_left (fractionUnit_dvd_day scale) day.val)

theorem roundTime_of_dvd (h : IsNanos n) (hdvd : fractionUnit scale ∣ n) :
    roundTime n scale = n := by
  simp only [roundTime, roundNanos_of_dvd h.1 hdvd]
  exact if_neg (Int.not_le.2 h.2)

theorem roundDayTime_of_dvd (h : IsNanos n) (hdvd : fractionUnit scale ∣ n) (day : Whole) :
    roundDayTime day n scale = (day, n) := by
  simp only [roundDayTime, roundNanos_of_dvd h.1 hdvd]
  exact if_neg (Int.not_le.2 h.2)

theorem checkDay_toNum (day : Whole) : checkDay day.toNum =
    if Num.isSafe day.val then .ok day else fail (.invalidValue "epoch day" day.toNum.text) := by
  rw [checkDay, Whole.ofNum?_toNum]

section Kinds

variable {count : Num} (hcount : count.toInt? = some (scale : Int)) (onlySmaller : Bool)

include hcount

theorem checkScale_of_natural : checkScale count = .ok scale := by
  rw [checkScale, hcount]

theorem toScale_time (hlt : scale < 9) (h : IsNanos nanos) :
    (time nanos).toScale onlySmaller count = .ok (.time (roundTime nanos scale)) := by
  simp only [toScale, checkScale_of_natural hcount, ok_bind, if_neg (Nat.not_le.2 hlt)]
  exact ofTime_of_isNanos (isNanos_roundTime h scale)

theorem toScale_timeTz {offset : Whole} (hlt : scale < 9) (h : IsNanos nanos)
    (ho : IsOffset offset.val) : (timeTz nanos offset).toScale onlySmaller count =
      .ok (.timeTz (roundTime nanos scale) offset) := by
  simp only [toScale, checkScale_of_natural hcount, ok_bind, if_neg (Nat.not_le.2 hlt), ofTimeTz,
    checkNanos_of_isNanos (isNanos_roundTime h scale),
    checkOffset_eq_ok.2 ⟨offset.ofNum?_toNum, ho⟩]
  rfl

theorem toScale_timestamp {day : Whole} (hlt : scale < 9) (h : (timestamp day nanos).WellFormed) :
    (timestamp day nanos).toScale onlySmaller count =
      let (newDay, rounded) := roundDayTime day nanos scale
      if Num.isSafe newDay.val then .ok (.timestamp newDay rounded)
      else fail (.invalidValue "epoch day" newDay.toNum.text) := by
  have hnanos := checkNanos_of_isNanos (isNanos_roundDayTime day h.2 scale)
  simp only [toScale, checkScale_of_natural hcount, ok_bind, if_neg (Nat.not_le.2 hlt)]
  split
  next hsame =>
    simp only [Bool.and_eq_true, decide_eq_true_eq] at hsame
    rw [hsame.1, hsame.2, if_pos h.1]
    rfl
  next =>
    rw [ofTimestamp, checkDay_toNum]
    split
    next => rw [ok_bind, hnanos]; rfl
    next => rfl

theorem toScale_timestampTz {day offset : Whole} (hlt : scale < 9)
    (h : (timestampTz day nanos offset).WellFormed) :
    (timestampTz day nanos offset).toScale onlySmaller count =
      let (newDay, rounded) := roundDayTime day nanos scale
      if Num.isSafe newDay.val then .ok (.timestampTz newDay rounded offset)
      else fail (.invalidValue "epoch day" newDay.toNum.text) := by
  obtain ⟨hsafe, hnanos, ho⟩ := h
  have hrounded := checkNanos_of_isNanos (isNanos_roundDayTime day hnanos scale)
  simp only [toScale, checkScale_of_natural hcount, ok_bind, if_neg (Nat.not_le.2 hlt)]
  split
  next hsame =>
    simp only [Bool.and_eq_true, decide_eq_true_eq] at hsame
    rw [hsame.1, hsame.2, if_pos hsafe]
    rfl
  next =>
    rw [ofTimestampTz, checkDay_toNum]
    split
    next => rw [ok_bind, hrounded, ok_bind, checkOffset_eq_ok.2 ⟨offset.ofNum?_toNum, ho⟩]; rfl
    next => rfl

end Kinds

/-- The nanosecond that a clock shows: of the day for a time, from the epoch for a timestamp. -/
def clockNanos? : Value → Option Int
  | .time nanos | .timeTz nanos _ => some nanos
  | .timestamp day nanos | .timestampTz day nanos _ => some (localNanos day.val nanos)
  | _ => none

def offset? : Value → Option Whole
  | .timeTz _ offset | .timestampTz _ _ offset => some offset
  | _ => none

def isTimestamp : Value → Bool
  | .timestamp _ _ | .timestampTz _ _ _ => true
  | _ => false

section Clock

variable {v w : Value} {x y : Int} (hv : v.WellFormed) (hx : v.clockNanos? = some x)

include hv hx

theorem type_scale_eq : v.type.scale = .int (fractionScale (x % nanosPerDay)) := by
  cases v with
  | time nanos =>
    cases hx
    rw [Int.emod_eq_of_lt hv.1 hv.2]
    rfl
  | timeTz nanos offset =>
    cases hx
    rw [Int.emod_eq_of_lt hv.1.1 hv.1.2]
    rfl
  | timestamp day nanos =>
    cases hx
    rw [(Calendar.localNanos_div_mod _ hv.2).2]
    rfl
  | timestampTz day nanos offset =>
    cases hx
    rw [(Calendar.localNanos_div_mod _ hv.2.1).2]
    rfl
  | _ => cases hx

theorem type_scale_le_iff : v.type.scale.le (.int scale) = true ↔ fractionUnit scale ∣ x := by
  have hday : fractionUnit scale ∣ x % nanosPerDay ↔ fractionUnit scale ∣ x := by
    conv_rhs => rw [← Int.emod_add_mul_ediv x nanosPerDay]
    exact (dvd_add_left (Dvd.dvd.mul_right (fractionUnit_dvd_day scale) _)).symm
  rw [type_scale_eq hv hx, ← hday, ← fractionScale_le_iff (Calendar.isNanos_mod x).1]
  simp [Num.le, Num.atLeast]

section Scale

variable {count : Num} (hcount : count.toInt? = some (scale : Int)) (onlySmaller : Bool)

include hcount

theorem toScale_of_nine_le (hge : 9 ≤ scale) : v.toScale onlySmaller count = .ok v := by
  cases v with
  | time | timeTz | timestamp | timestampTz =>
    simp only [toScale, checkScale_of_natural hcount, ok_bind, if_pos hge, pure_eq_ok]
  | _ => cases hx

theorem toScale_of_dvd (hdvd : fractionUnit scale ∣ x) :
    v.toScale onlySmaller count = .ok v := by
  rcases Nat.lt_or_ge scale 9 with hlt | hge
  swap
  · exact toScale_of_nine_le hv hx hcount onlySmaller hge
  have hnanos {day : Whole} {nanos : Int} (hlocal : fractionUnit scale ∣ localNanos day.val nanos) :
      fractionUnit scale ∣ nanos :=
    (Int.dvd_add_right (Dvd.dvd.mul_left (fractionUnit_dvd_day scale) _)).1 hlocal
  cases v with
  | time nanos =>
    cases hx
    rw [toScale_time hcount onlySmaller hlt hv, roundTime_of_dvd hv hdvd]
  | timeTz nanos offset =>
    cases hx
    rw [toScale_timeTz hcount onlySmaller hlt hv.1 hv.2, roundTime_of_dvd hv.1 hdvd]
  | timestamp day nanos =>
    cases hx
    rw [toScale_timestamp hcount onlySmaller hlt hv, roundDayTime_of_dvd hv.2 (hnanos hdvd)]
    exact if_pos hv.1
  | timestampTz day nanos offset =>
    cases hx
    rw [toScale_timestampTz hcount onlySmaller hlt hv, roundDayTime_of_dvd hv.2.1 (hnanos hdvd)]
    exact if_pos hv.1
  | _ => cases hx

/-- What becomes of a value whose clock is rounded: it fails only if it is a timestamp and the day
is no longer a safe integer, and a time stays within its day. -/
theorem toScale_rounds (hlt : scale < 9) :
    ∃ r, IsNearestMultiple (fractionUnit scale) x r ∧
      if v.isTimestamp && !Num.isSafe (r / nanosPerDay) then
        v.toScale onlySmaller count =
          fail (.invalidValue "epoch day" (Num.int (r / nanosPerDay)).text)
      else ∃ w, v.toScale onlySmaller count = .ok w ∧ w.WellFormed ∧ w.kind = v.kind ∧
        w.offset? = v.offset? ∧ w.clockNanos? =
          some (if v.isTimestamp then r else min r (nanosPerDay - fractionUnit scale)) := by
  -- the zero with a minus sign is a safe day, so that its sign is in no message
  have hunsafe {day : Whole} (h : ¬ Num.isSafe day.val = true) :
      day.toNum.text = (Num.int day.val).text := by
    cases day with
    | int n => rfl
    | minusZero => exact absurd rfl h
  cases v with
  | time nanos =>
    cases hx
    refine ⟨_, roundNanos_isNearest hv.1 scale, _, toScale_time hcount onlySmaller hlt hv,
      isNanos_roundTime hv scale, rfl, rfl, ?_⟩
    rw [← roundTime_eq_min hv]
    rfl
  | timeTz nanos offset =>
    cases hx
    refine ⟨_, roundNanos_isNearest hv.1.1 scale, _,
      toScale_timeTz hcount onlySmaller hlt hv.1 hv.2, ⟨isNanos_roundTime hv.1 scale, hv.2⟩, rfl,
      rfl, ?_⟩
    rw [← roundTime_eq_min hv.1]
    rfl
  | timestamp day nanos =>
    cases hx
    have hnanos := isNanos_roundDayTime day hv.2 scale
    refine ⟨_, roundDayTime_isNearest day hv.2.1 scale, ?_⟩
    rw [toScale_timestamp hcount onlySmaller hlt hv, (Calendar.localNanos_div_mod _ hnanos).1]
    by_cases hsafe : Num.isSafe (roundDayTime day nanos scale).1.val = true
    · simp only [isTimestamp, hsafe]
      exact ⟨_, rfl, ⟨hsafe, hnanos⟩, rfl, rfl, rfl⟩
    · simp only [isTimestamp, hsafe, hunsafe hsafe]
      rfl
  | timestampTz day nanos offset =>
    cases hx
    have hnanos := isNanos_roundDayTime day hv.2.1 scale
    refine ⟨_, roundDayTime_isNearest day hv.2.1.1 scale, ?_⟩
    rw [toScale_timestampTz hcount onlySmaller hlt hv, (Calendar.localNanos_div_mod _ hnanos).1]
    by_cases hsafe : Num.isSafe (roundDayTime day nanos scale).1.val = true
    · simp only [isTimestamp, hsafe]
      exact ⟨_, rfl, ⟨hsafe, hnanos, hv.2.2⟩, rfl, rfl, rfl⟩
    · simp only [isTimestamp, hsafe, hunsafe hsafe]
      rfl
  | _ => cases hx

theorem toScale_again (h : v.toScale onlySmaller count = .ok w) :
    w.offset? = v.offset? ∧ w.type.scale.le (.int scale) = true ∧
      w.toScale onlySmaller count = .ok w := by
  rcases Nat.lt_or_ge scale 9 with hlt | hge
  · obtain ⟨r, hr, hcases⟩ := toScale_rounds hv hx hcount onlySmaller hlt
    split at hcases
    · rw [h] at hcases
      exact absurd hcases.symm (fail_ne_ok _ w)
    · obtain ⟨u, hu, hwell, -, hoffset, hclock⟩ := hcases
      obtain rfl : w = u := Except.ok.inj (h.symm.trans hu)
      have hdvd : fractionUnit scale ∣
          if v.isTimestamp then r else min r (nanosPerDay - fractionUnit scale) := by
        split
        · exact hr.dvd
        · exact fractionUnit_dvd_min hr.dvd
      exact ⟨hoffset, (type_scale_le_iff hwell hclock).2 hdvd,
        toScale_of_dvd hwell hclock hcount onlySmaller hdvd⟩
  · have hkeep := toScale_of_nine_le hv hx hcount onlySmaller hge
    obtain rfl : w = v := Except.ok.inj (h.symm.trans hkeep)
    have hone : fractionUnit scale = 1 := by
      rw [fractionUnit_eq, Nat.sub_eq_zero_of_le hge]
      rfl
    exact ⟨rfl, (type_scale_le_iff hv hx).2 (hone ▸ Int.one_dvd x), hkeep⟩

end Scale

theorem toScale_type_scale (onlySmaller : Bool) : v.toScale onlySmaller v.type.scale = .ok v := by
  have hcount : v.type.scale.toInt? = some ((fractionScale (x % nanosPerDay) : Nat) : Int) := by
    rw [type_scale_eq hv hx]
    rfl
  refine toScale_of_dvd hv hx hcount onlySmaller ((type_scale_le_iff hv hx).1 ?_)
  rw [type_scale_eq hv hx]
  simp [Num.le, Num.atLeast]

theorem isSafe_clock_day (h : v.isTimestamp = true) : Num.isSafe (x / nanosPerDay) = true := by
  cases v with
  | timestamp day nanos =>
    cases hx
    rw [(Calendar.localNanos_div_mod _ hv.2).1]
    exact hv.1
  | timestampTz day nanos offset =>
    cases hx
    rw [(Calendar.localNanos_div_mod _ hv.2.1).1]
    exact hv.1
  | _ => cases h

theorem typeSafe_clock (s : Session) (hw : w.WellFormed) (hy : w.clockNanos? = some y)
    (hkind : w.kind = v.kind) (hoffset : w.offset? = v.offset?) :
    Compare.typeSafe s v w = .ok (Ord.compare x y) := by
  cases v with
  | time m =>
    cases w with
    | time n =>
      cases hx
      cases hy
      rfl
    | _ => cases hkind
  | timeTz m o =>
    cases w with
    | timeTz n p =>
      cases hx
      cases hy
      cases hoffset
      simp only [Compare.typeSafe, Compare.sameKind, Compare.instantOrder]
      rw [Calendar.compare_sub_right, Int.compare_eq_eq.2 rfl, Ordering.then_eq]
    | _ => cases hkind
  | timestamp d m =>
    cases w with
    | timestamp e n =>
      cases hx
      cases hy
      rw [Compare.typeSafe, Compare.sameKind, Calendar.compare_localNanos hv.2 hw.2]
    | _ => cases hkind
  | timestampTz d m o =>
    cases w with
    | timestampTz e n p =>
      cases hx
      cases hy
      cases hoffset
      simp only [Compare.typeSafe, Compare.sameKind, Compare.instantOrder, Calendar.utcNanos_eq]
      rw [Calendar.compare_sub_right, Int.compare_eq_eq.2 rfl, Ordering.then_eq]
    | _ => cases hkind
  | _ => cases hx

omit hv in
theorem clockNanos?_of_kind (hkind : w.kind = v.kind) :
    w.isTimestamp = v.isTimestamp ∧ ∃ y, w.clockNanos? = some y := by
  cases v with
  | time | timeTz | timestamp | timestampTz =>
    cases w <;> first | exact ⟨rfl, _, rfl⟩ | cases hkind
  | _ => cases hx

theorem toScale_mono (hlt : scale < 9) {count : Num} (hcount : count.toInt? = some (scale : Int))
    (onlySmaller : Bool) {v' w' : Value} (hv' : v'.WellFormed) (hy : v'.clockNanos? = some y)
    (hkind : v'.kind = v.kind) (hle : x ≤ y) (h : v'.toScale onlySmaller count = .ok w') :
    ∃ w a b, v.toScale onlySmaller count = .ok w ∧ w.WellFormed ∧ w'.WellFormed ∧
      w.kind = v.kind ∧ w'.kind = v'.kind ∧
      w.clockNanos? = some a ∧ w'.clockNanos? = some b ∧ a ≤ b := by
  obtain ⟨hstamp, -⟩ := clockNanos?_of_kind hx hkind
  obtain ⟨r, hr, hcases⟩ := toScale_rounds hv hx hcount onlySmaller hlt
  obtain ⟨t, ht, hcases'⟩ := toScale_rounds hv' hy hcount onlySmaller hlt
  rw [hstamp] at hcases'
  have hrt : r ≤ t := hr.mono ht hle
  split at hcases'
  next => exact absurd (h.symm.trans hcases') (fail_ne_ok _ w').symm
  next hsafe' =>
    obtain ⟨u', hu', hwell', hkind', -, hclock'⟩ := hcases'
    obtain rfl : w' = u' := Except.ok.inj (h.symm.trans hu')
    split at hcases
    next hunsafe =>
      -- the day of `r` lies between those of `x` and `t`
      simp only [Bool.and_eq_true, Bool.not_eq_true', not_and, Bool.not_eq_false] at hunsafe hsafe'
      obtain ⟨htime, hunsafe⟩ := hunsafe
      have hlow := isSafe_clock_day hv hx htime
      have hhigh := hsafe' htime
      have hfirst := hr.div_le (fractionUnit_dvd_day scale) (by decide)
      have hlast : r / nanosPerDay ≤ t / nanosPerDay := Int.ediv_le_ediv (by decide) hrt
      rw [Num.isSafe_iff] at hlow hhigh
      rw [← Bool.not_eq_true, Num.isSafe_iff] at hunsafe
      omega
    next =>
      obtain ⟨u, hu, hwell, hkind'', -, hclock⟩ := hcases
      refine ⟨u, _, _, hu, hwell, hwell', hkind'', hkind', hclock, hclock', ?_⟩
      split
      · exact hrt
      · exact min_le_min_right _ hrt

theorem atMost_clock (s : Session) (hw : w.WellFormed) (hy : w.clockNanos? = some y)
    (hkind : w.kind = v.kind) (hoffset : w.offset? = v.offset?) :
    AtMost (Compare.typeSafe s) v w ↔ x ≤ y := by
  rw [AtMost, typeSafe_clock hv hx s hw hy hkind hoffset]
  simp [Std.isLE_compare]

end Clock

/-- Values with a time of day and their scales: the clock of the value is rounded to the nearest
multiple of the unit at an offset that stays, a timestamp goes on to the next day if that is a safe
integer, and a time keeps to its day. Rounded values have no more digits than the scale and round
to themselves, as any value does to its own scale, and rounding keeps the order. -/
theorem toScale_temporal (s : Session) (onlySmaller : Bool) {scale : Nat} {count : Num}
    (hcount : count.toInt? = some (scale : Int)) {v : Value} {x : Int} (hv : v.WellFormed)
    (hx : v.clockNanos? = some x) :
    (9 ≤ scale → v.toScale onlySmaller count = .ok v) ∧
    (scale < 9 → ∃ r, IsNearestMultiple (10 ^ (9 - scale)) x r ∧
      (∀ o, v.offset? = some o → IsNearestMultiple (10 ^ (9 - scale))
        (x - o.val * nanosPerSecond) (r - o.val * nanosPerSecond)) ∧
      if v.isTimestamp && !Num.isSafe (r / nanosPerDay) then
        v.toScale onlySmaller count =
          fail (.invalidValue "epoch day" (Num.int (r / nanosPerDay)).text)
      else ∃ w, v.toScale onlySmaller count = .ok w ∧ w.WellFormed ∧ w.kind = v.kind ∧
        w.clockNanos? = some (if v.isTimestamp then r else min r (nanosPerDay - 10 ^ (9 - scale)))) ∧
    (∀ w, v.toScale onlySmaller count = .ok w →
      w.offset? = v.offset? ∧ w.type.scale.le (.int scale) = true ∧
        w.toScale onlySmaller count = .ok w) ∧
    (∀ v' w', v'.WellFormed → v'.kind = v.kind → v'.offset? = v.offset? →
      AtMost (Compare.typeSafe s) v v' → v'.toScale onlySmaller count = .ok w' →
        ∃ w, v.toScale onlySmaller count = .ok w ∧ AtMost (Compare.typeSafe s) w w') ∧
    v.toScale onlySmaller v.type.scale = .ok v := by
  have hkeep := toScale_of_nine_le hv hx hcount onlySmaller
  refine ⟨hkeep, fun hlt => ?_, fun w h => toScale_again hv hx hcount onlySmaller h,
    fun v' w' hv' hkind hoffset horder h => ?_, toScale_type_scale hv hx onlySmaller⟩
  · obtain ⟨r, hr, hcases⟩ := toScale_rounds hv hx hcount onlySmaller hlt
    rw [fractionUnit_eq] at hr hcases
    refine ⟨r, hr, fun o _ => ?_, ?_⟩
    · rw [← fractionUnit_eq] at hr ⊢
      simp only [Int.sub_eq_add_neg, Int.add_comm _ (-_)]
      exact hr.add_left (Int.dvd_neg.2 (Dvd.dvd.mul_left (fractionUnit_dvd_second scale) _))
    · split at hcases
      next h => rw [if_pos h, hcases]
      next h =>
        obtain ⟨w, hw, hwell, hkind, -, hclock⟩ := hcases
        rw [if_neg h]
        exact ⟨w, hw, hwell, hkind, hclock⟩
  · obtain ⟨-, y, hy⟩ := clockNanos?_of_kind hx hkind
    rcases Nat.lt_or_ge scale 9 with hlt | hge
    · have hxy := (atMost_clock hv hx s hv' hy hkind hoffset).1 horder
      obtain ⟨w, a, b, hw, hwell, hwell', hkind', hkind'', ha, hb, hab⟩ :=
        toScale_mono hv hx hlt hcount onlySmaller hv' hy hkind hxy h
      have hoffset' := (toScale_again hv hx hcount onlySmaller hw).1
      have hoffset'' := (toScale_again hv' hy hcount onlySmaller h).1
      refine ⟨w, hw, (atMost_clock hwell ha s hwell' hb ?_ ?_).2 hab⟩
      · rw [hkind', hkind'', hkind]
      · rw [hoffset', hoffset'', hoffset]
    · have hsame := toScale_of_nine_le hv' hy hcount onlySmaller hge
      obtain rfl : w' = v' := Except.ok.inj (h.symm.trans hsame)
      exact ⟨v, hkeep hge, horder⟩

theorem toScale_temporal_of_midnight :
    let late : Value := .timestampTz (.int (-1)) 86399999600000 (.int 3600)
    let midnight : Value := .timestampTz (.int 0) 0 (.int 3600)
    IsNearestMultiple (10 ^ 6) (-400000) 0 ∧ late.toScale true (.int 3) = .ok midnight ∧
      midnight.toScale true (.int 3) = .ok midnight ∧ late.toScale true (.int 4) = .ok late := by
  intro late midnight
  have hlate : late.WellFormed := ⟨by decide, by decide, by decide⟩
  have hclock : late.clockNanos? = some (-400000) := rfl
  have hcarry : late.toScale true (.int 3) = .ok midnight := by rfl
  have hcount : (Num.int 3).toInt? = some ((3 : Nat) : Int) := rfl
  obtain ⟨-, -, hagain, -, hown⟩ := toScale_temporal (.system 0 0) true hcount hlate hclock
  have hzero : IsNearestMultiple (10 ^ 6) (-400000) 0 := ⟨by decide, by decide, by decide⟩
  exact ⟨hzero, hcarry, (hagain midnight hcarry).2.2, hown⟩

end Value

end Datum
