import Datum.Proofs.Calendar.Instants
import Datum.Proofs.Compare.Promotion

/-!
# Conversion through the zone of the session

A zoned timestamp becomes a local one by the offset that the zone gives at its instant, and a local
timestamp becomes a zoned one by the offset that the zone gives at its local time. Date and time of
day come out the same with a timestamp between and without one, and a timestamp comes back exactly
if the two offsets agree.
-/

set_option autoImplicit false

namespace Datum

open Calendar
open Compare (utcNanos)

/-- A zone answers with integers, at instants in seconds and at local days and times. -/
structure Zone.HasOffsets (z : Zone) (atInstant : Int → Int) (atLocal : Int → Int → Int) :
    Prop where
  instant : ∀ second, (z.atInstant second).toInt? = some (atInstant second)
  wall : ∀ day nanos, (z.atLocal day nanos).toInt? = some (atLocal day nanos)

namespace Value

def utcNanos? : Value → Option Int
  | .timestampTz day nanos offset => some (utcNanos day.val nanos offset.val)
  | _ => none

def timestampAt (n : Int) : Value := .timestamp (.int (n / nanosPerDay)) (n % nanosPerDay)

theorem equals_timestampAt {day : Whole} {nanos n : Int} (h : IsNanos nanos) :
    (timestampAt n).equals (.timestamp day nanos) = true ↔ n = localNanos day.val nanos := by
  obtain ⟨hday, hnanos⟩ := localNanos_div_mod day.val h
  rw [timestampAt, equals_timestamp, Bool.and_eq_true, beq_iff_eq, beq_iff_eq]
  constructor
  · rintro ⟨hd, hr⟩
    rw [← localNanos_split n, ← hr]
    exact congrArg (localNanos · _) hd
  · rintro rfl
    exact ⟨hday, hnanos⟩

end Value

namespace Convert

open Value

variable {day offset : Whole} {nanos o : Int} {c : ConvertContext}

theorem tmod_nanosPerSecond (h : IsNanos nanos) : nanos.tmod nanosPerSecond
    = shifted (utcNanos day.val nanos offset.val) o % nanosPerSecond := by
  rw [Int.tmod_eq_emod_of_nonneg h.1]
  simp only [shifted, utcNanos, nanosPerDay_eq, nanosPerSecond]
  omega

theorem localSeconds_eq (h : IsNanos nanos) {s : Session}
    (ho : (s.zone.atInstant (utcNanos day.val nanos offset.val / nanosPerSecond)).toInt? = some o) :
    localSeconds day nanos offset s
      = .ok (shifted (utcNanos day.val nanos offset.val) o / nanosPerSecond) := by
  rw [localSeconds, epochSeconds_eq h, exactInt, ho]
  simp only [ok_bind, pure_eq_ok, Except.ok.injEq]
  exact (Int.add_mul_ediv_right _ _ (by decide)).symm

section FromInstant

variable (h : IsNanos nanos)
  (ho : (c.session.zone.atInstant (utcNanos day.val nanos offset.val / nanosPerSecond)).toInt?
    = some o)

include h ho

theorem toTimestamp_zoned {t : Value} :
    convert (.timestampTz day nanos offset) .timestamp c = .ok t ↔
      Num.isSafe (shifted (utcNanos day.val nanos offset.val) o / nanosPerDay) = true ∧
        t = timestampAt (shifted (utcNanos day.val nanos offset.val) o) := by
  rw [convert_eq_byRule rfl (by simp)]
  simp only [byRule, toTimestamp, instantToTimestamp, localSeconds_eq h ho, ok_bind]
  rw [tmod_nanosPerSecond h, nanosOfLocalSeconds_add, dayOfLocalSeconds_eq, ofTimestamp_eq_ok]
  simp only [Whole.ofNum?, Option.some.injEq, exists_eq_left', WellFormed, Whole.val,
    Num.isSafe_round53, isNanos_mod, and_true]
  refine and_congr_right fun hsafe => ?_
  rw [Num.round53_of_isSafe hsafe, timestampAt]

theorem toDate_zoned
    (hsafe : Num.isSafe (shifted (utcNanos day.val nanos offset.val) o / nanosPerDay) = true) :
    convert (.timestampTz day nanos offset) .date c =
      .ok (.date (.int (shifted (utcNanos day.val nanos offset.val) o / nanosPerDay))) := by
  rw [convert_eq_byRule rfl (by simp)]
  simp only [byRule, toDate, localSeconds_eq h ho, ok_bind]
  rw [dayOfLocalSeconds_eq, Num.round53_of_isSafe hsafe, ofDay_of_isSafe hsafe]

theorem toTime_zoned :
    convert (.timestampTz day nanos offset) .time c =
      .ok (.time (shifted (utcNanos day.val nanos offset.val) o % nanosPerDay)) := by
  rw [convert_eq_byRule rfl (by simp)]
  simp only [byRule, toTime, localSeconds_eq h ho, ok_bind]
  rw [tmod_nanosPerSecond h, nanosOfLocalSeconds_add, ofTime_of_isNanos (isNanos_mod _)]

end FromInstant

theorem toDate_timestampAt {n : Int} (hsafe : Num.isSafe (n / nanosPerDay) = true) :
    convert (timestampAt n) .date c = .ok (.date (.int (n / nanosPerDay))) := by
  rw [convert_eq_byRule rfl (by simp [timestampAt])]
  exact ofDay_of_isSafe hsafe

theorem toTime_timestampAt (n : Int) :
    convert (timestampAt n) .time c = .ok (.time (n % nanosPerDay)) := by
  rw [convert_eq_byRule rfl (by simp [timestampAt])]
  exact ofTime_of_isNanos (isNanos_mod n)

theorem toTimestampTz_timestamp {p : Int} {v : Value}
    (hp : (c.session.zone.atLocal day.val nanos).toInt? = some p)
    (hv : convert (.timestamp day nanos) .timestampTz c = .ok v) :
    ∃ w : Whole, v = .timestampTz day nanos w ∧ v.WellFormed ∧ w.val = p := by
  rw [convert_eq_byRule rfl (by simp)] at hv
  obtain ⟨d, w, hd, hw, hwell, rfl⟩ := ofTimestampTz_eq_ok.1 hv
  obtain rfl := Option.some.inj ((Whole.ofNum?_toNum day).symm.trans hd)
  exact ⟨w, rfl, hwell, Option.some.inj ((Whole.toInt?_of_ofNum? hw).symm.trans hp)⟩

section Agreement

variable {atInstant : Int → Int} {atLocal : Int → Int → Int}
  (hzone : c.session.zone.HasOffsets atInstant atLocal)

include hzone

theorem zoned_through_local {u : Int} (hv : (timestampTz day nanos offset).WellFormed)
    (hu : utcNanos day.val nanos offset.val = u) (ho : atInstant (u / nanosPerSecond) = o)
    {t : Value} (ht : convert (.timestampTz day nanos offset) .timestamp c = .ok t) :
    ∃ d n, t = .timestamp d n ∧ localNanos d.val n = u + o * nanosPerSecond ∧
      (∃ w, convert (.timestampTz day nanos offset) .date c = .ok w ∧ convert t .date c = .ok w) ∧
      (∃ w, convert (.timestampTz day nanos offset) .time c = .ok w ∧ convert t .time c = .ok w) ∧
      ∀ w, convert t .timestampTz c = .ok w → (w.utcNanos? = some u ↔ atLocal d.val n = o) := by
  have hanswer := hzone.instant (u / nanosPerSecond)
  rw [ho, ← hu] at hanswer
  obtain ⟨hsafe, rfl⟩ := (toTimestamp_zoned hv.2.1 hanswer).1 ht
  have hdate := toDate_zoned hv.2.1 hanswer hsafe
  have htime := toTime_zoned hv.2.1 hanswer
  rw [hu] at hsafe hdate htime ⊢
  refine ⟨_, _, rfl, localNanos_split _, ⟨_, hdate, toDate_timestampAt hsafe⟩,
    ⟨_, htime, toTime_timestampAt _⟩, fun w hw => ?_⟩
  obtain ⟨p, rfl, -, hp⟩ := toTimestampTz_timestamp (hzone.wall _ _) hw
  rw [utcNanos?, Option.some.injEq, utcNanos_eq, Whole.val_int, localNanos_split, shifted_back, hp,
    Whole.val_int]

theorem local_through_zoned (ht : (timestamp day nanos).WellFormed) {v : Value}
    (hv : convert (.timestamp day nanos) .timestampTz c = .ok v) :
    ∃ u, v.utcNanos? = some u ∧
      ((∃ w, convert v .timestamp c = .ok w ∧ w.equals (.timestamp day nanos) = true) ↔
        atInstant (u / nanosPerSecond) = atLocal day.val nanos) := by
  obtain ⟨p, rfl, hwell, hp⟩ := toTimestampTz_timestamp (hzone.wall _ _) hv
  have hback (w : Value) := toTimestamp_zoned (t := w) ht.2
    (hzone.instant (utcNanos day.val nanos p.val / nanosPerSecond))
  refine ⟨_, rfl, ⟨?_, fun h => ?_⟩⟩
  · rintro ⟨w, hw, heq⟩
    obtain ⟨-, rfl⟩ := (hback w).1 hw
    rw [equals_timestampAt ht.2, ← shifted_utcNanos _ _ p.val, shifted_inj] at heq
    exact heq.trans hp
  · have hlocal : shifted (utcNanos day.val nanos p.val)
        (atInstant (utcNanos day.val nanos p.val / nanosPerSecond)) = localNanos day.val nanos := by
      rw [h, ← hp, shifted_utcNanos]
    refine ⟨timestampAt (localNanos day.val nanos), ?_, (equals_timestampAt ht.2).2 rfl⟩
    rw [hback, hlocal, (localNanos_div_mod _ ht.2).1]
    exact ⟨ht.1, rfl⟩

/-- The conversions between zoned and local timestamps agree with each other and with those to dates
and times, for every zone with integer offsets. A zoned timestamp becomes local exactly if the day
can be stored, and then lies later by the offset of the zone at its instant. -/
theorem zone_conversions_agree :
    (∀ v u o, v.WellFormed → v.utcNanos? = some u → atInstant (u / nanosPerSecond) = o →
      ((∃ t, convert v .timestamp c = .ok t) ↔
        Num.isSafe ((u + o * nanosPerSecond) / nanosPerDay) = true) ∧
      ∀ t, convert v .timestamp c = .ok t → ∃ d n, t = .timestamp d n ∧
        localNanos d.val n = u + o * nanosPerSecond ∧
        (∃ w, convert v .date c = .ok w ∧ convert t .date c = .ok w) ∧
        (∃ w, convert v .time c = .ok w ∧ convert t .time c = .ok w) ∧
        ∀ w, convert t .timestampTz c = .ok w → (w.utcNanos? = some u ↔ atLocal d.val n = o)) ∧
    ∀ day nanos v, (timestamp day nanos).WellFormed →
      convert (.timestamp day nanos) .timestampTz c = .ok v → ∃ u, v.utcNanos? = some u ∧
        ((∃ w, convert v .timestamp c = .ok w ∧ w.equals (.timestamp day nanos) = true) ↔
          atInstant (u / nanosPerSecond) = atLocal day.val nanos) := by
  refine ⟨fun v u o hv hu ho => ?_, fun day nanos v ht hv => local_through_zoned hzone ht hv⟩
  cases v with
  | timestampTz day nanos offset =>
    obtain rfl := Option.some.inj hu
    have hanswer := hzone.instant (utcNanos day.val nanos offset.val / nanosPerSecond)
    rw [ho] at hanswer
    refine ⟨⟨?_, fun hsafe => ?_⟩, fun t => zoned_through_local hzone hv rfl ho⟩
    · rintro ⟨t, ht⟩
      exact ((toTimestamp_zoned hv.2.1 hanswer).1 ht).1
    · exact ⟨_, (toTimestamp_zoned hv.2.1 hanswer).2 ⟨hsafe, rfl⟩⟩
  | _ => cases hu

end Agreement

/-- Half an hour after the clocks of a zone went forward. -/
theorem zone_conversions_agree_of_summer_time :
    ∃ (c : ConvertContext) (atInstant : Int → Int) (atLocal : Int → Int → Int) (v t w : Value)
      (u : Int), c.session.zone.HasOffsets atInstant atLocal ∧ v.WellFormed ∧
      v.utcNanos? = some u ∧ convert v .timestamp c = .ok t ∧
      convert t .timestampTz c = .ok w ∧ w.utcNanos? = some u := by
  let zone := Zone.steps (.int 3600) [(3600, .int 7200)] [(10800, .int 7200)]
  let c : ConvertContext := .ofSession ⟨⟨.int 0, 0, .int 0⟩, zone⟩
  let v : Value := .timestampTz (.int 0) 5400000000001 (.int 0)
  let t : Value := .timestamp (.int 0) 12600000000001
  let w : Value := .timestampTz (.int 0) 12600000000001 (.int 7200)
  have hzone : zone.HasOffsets (fun second => if 3600 ≤ second then 7200 else 3600)
      (fun day nanos =>
        if 10800 ≤ day * secondsPerDay + nanos.tdiv nanosPerSecond then 7200 else 3600) := by
    constructor
    · intro second
      simp only [zone, Zone.steps, Zone.stepAt, List.foldl]
      split <;> rfl
    · intro day nanos
      simp only [zone, Zone.steps, Zone.stepAt, List.foldl]
      split <;> rfl
  have hv : v.WellFormed := by
    simp only [v, WellFormed, IsNanos, IsOffset]
    decide
  have ht : convert v .timestamp c = .ok t := by rfl
  have hw : convert t .timestampTz c = .ok w := by rfl
  obtain ⟨hagree, -⟩ := zone_conversions_agree (c := c) hzone
  obtain ⟨-, hlocal⟩ := hagree v _ _ hv rfl rfl
  obtain ⟨d, n, hd, -, -, -, hback⟩ := hlocal t ht
  obtain ⟨rfl, rfl⟩ := Value.timestamp.inj hd
  exact ⟨c, _, _, v, t, w, _, hzone, hv, rfl, ht, hw, (hback w hw).2 (by decide)⟩

end Convert

end Datum
