import Datum.Proofs.Calendar.Instants
import Datum.Proofs.Compare.Promotion

/-!
# The order of dates and timestamps

In a session at a fixed offset every date and every timestamp lies at an instant and is seen at an
offset: dates at midnight, and dates and local timestamps at the offset of the session. Each is
promoted with its instant and its offset, so that in any mixture they compare by these two.
-/

set_option autoImplicit false

namespace Datum

open Calendar
open Std (TransCmp)

structure Moment where
  instant : Int
  offset : Int

/-- Earlier instants come first, and of equal ones that at the greater offset. -/
def Moment.compare (x y : Moment) : Ordering :=
  (Ord.compare x.instant y.instant).then (Ord.compare y.offset x.offset)

instance : TransCmp Moment.compare :=
  transCmp_on (fun a b : Int × Int => Compare.instantOrder a.1 b.1 a.2 b.2)
    fun m : Moment => (m.instant, m.offset)

structure Zone.IsFixed (z : Zone) (o : Whole) : Prop where
  instant : ∀ second, z.atInstant second = o.toNum
  wall : ∀ day nanos, z.atLocal day nanos = o.toNum

theorem Zone.isFixed_fixed (o : Whole) : (fixed o.toNum).IsFixed o :=
  ⟨fun _ => rfl, fun _ _ => rfl⟩

def Value.moment? (o : Int) : Value → Option Moment
  | .date day => some ⟨Compare.utcNanos day.val 0 o, o⟩
  | .timestamp day nanos => some ⟨Compare.utcNanos day.val nanos o, o⟩
  | .timestampTz day nanos offset =>
    some ⟨Compare.utcNanos day.val nanos offset.val, offset.val⟩
  | _ => none

def Value.LiesAt (o : Int) (v : Value) (m : Moment) : Prop :=
  v.WellFormed ∧ v.moment? o = some m

namespace Compare

open Value

variable {s : Session} {v w : Value} {x y : Moment} {o : Whole}

theorem isNanos_zero : IsNanos 0 := by decide

theorem moment_compare_local {d e m n : Int} (hm : IsNanos m) (hn : IsNanos n) (p : Int) :
    Moment.compare ⟨utcNanos d m p, p⟩ ⟨utcNanos e n p, p⟩
      = (Ord.compare d e).then (Ord.compare m n) := by
  simp only [Moment.compare, utcNanos_eq]
  rw [compare_sub_right, compare_localNanos hm hn, Int.compare_eq_eq.2 rfl, Ordering.then_eq]

theorem liesAt_compared (hv : v.LiesAt o.val x) (hw : w.LiesAt o.val y) (hk : v.kind = w.kind)
    (elements : List Value → List Value → Outcome Ordering) :
    sameKind elements v w = .ok (x.compare y) := by
  obtain ⟨hv, hx⟩ := hv
  obtain ⟨hw, hy⟩ := hw
  cases v with
  | date d =>
    cases w with
    | date e =>
      cases hx
      cases hy
      rw [moment_compare_local isNanos_zero isNanos_zero, Int.compare_eq_eq.2 rfl,
        Ordering.then_eq]
      rfl
    | _ => cases hk
  | timestamp d m =>
    cases w with
    | timestamp e n =>
      cases hx
      cases hy
      rw [moment_compare_local hv.2 hw.2]
      rfl
    | _ => cases hk
  | timestampTz d m p =>
    cases w with
    | timestampTz e n q =>
      cases hx
      cases hy
      rfl
    | _ => cases hk
  | _ => cases hx

theorem toTimestamp_date {day : Whole} (h : Num.isSafe day.val = true) (s : Session) :
    Convert.toTimestamp (.date day) s = .ok (.timestamp day 0) :=
  ofTimestamp_eq_ok.2 ⟨day, day.ofNum?_toNum, ⟨h, isNanos_zero⟩, rfl⟩

theorem zoned_fixed (hzone : s.zone.IsFixed o) (ho : IsOffset o.val) {day : Whole} {nanos : Int}
    (h : (timestamp day nanos).WellFormed) :
    Convert.zoned day nanos s = .ok (.timestampTz day nanos o) := by
  rw [Convert.zoned, hzone.wall]
  exact ofTimestampTz_eq_ok.2
    ⟨day, o, day.ofNum?_toNum, o.ofNum?_toNum, ⟨h.1, h.2, ho⟩, rfl⟩

theorem liesAt_promoted (hzone : s.zone.IsFixed o) (ho : IsOffset o.val)
    (hv : v.LiesAt o.val x) (hw : w.LiesAt o.val y) (hlt : v.kind.rank < w.kind.rank) :
    ∃ v', convert v w.kind (.ofSession s) = .ok v' ∧ v'.kind = w.kind ∧ v'.LiesAt o.val x := by
  have hrule (hnull : v.isNull = false) := convert_eq_byRule hnull (Kind.ne_of_rank_lt hlt)
  obtain ⟨hv, hx⟩ := hv
  cases v with
  | date d =>
    rw [hrule rfl]
    have hlocal : (timestamp d 0).WellFormed := ⟨hv, isNanos_zero⟩
    cases w with
    | date => simp [Kind.rank] at hlt
    | timestamp e n => exact ⟨_, toTimestamp_date hv s, rfl, hlocal, hx⟩
    | timestampTz e n q => exact ⟨_, zoned_fixed hzone ho hlocal, rfl, ⟨hv, isNanos_zero, ho⟩, hx⟩
    | _ => cases hw.2
  | timestamp d m =>
    rw [hrule rfl]
    cases w with
    | date | timestamp => simp [Kind.rank] at hlt
    | timestampTz e n q => exact ⟨_, zoned_fixed hzone ho hv, rfl, ⟨hv.1, hv.2, ho⟩, hx⟩
    | _ => cases hw.2
  | timestampTz d m p =>
    cases w with
    | date | timestamp | timestampTz => simp [Kind.rank] at hlt
    | _ => cases hw.2
  | _ => cases hx

theorem liesAt_promotes (hzone : s.zone.IsFixed o) (ho : IsOffset o.val) :
    Promotes s (LiesAt o.val) Moment.compare where
  plain {v x} hv := by
    obtain ⟨-, hx⟩ := hv
    cases v <;> cases hx <;> exact ⟨by simp, rfl⟩
  promoted := liesAt_promoted hzone ho
  compared hv hw hk := liesAt_compared hv hw hk _

/-- In a session at a fixed offset dates, local and zoned timestamps always compare, by their
instants and of equal ones by their offsets; so the order is antisymmetric and transitive across
their kinds. -/
theorem moment_order (hzone : s.zone.IsFixed o) (ho : IsOffset o.val) {a b c : Value}
    {x y z : Moment} (ha : a.LiesAt o.val x) (hb : b.LiesAt o.val y) (hc : c.LiesAt o.val z) :
    total s a b =
        .ok ((Ord.compare x.instant y.instant).then (Ord.compare y.offset x.offset)) ∧
      (∃ found, total s a b = .ok found ∧ total s b a = .ok found.swap) ∧
      (AtMost (total s) a b → AtMost (total s) b c → AtMost (total s) a c) := by
  have h := liesAt_promotes hzone ho
  exact ⟨h.total_eq ha hb, h.preordered.turned ⟨x, ha⟩ ⟨y, hb⟩,
    h.preordered.trans ⟨x, ha⟩ ⟨y, hb⟩ ⟨z, hc⟩⟩

theorem moment_order_of_midnight :
    ∃ a b c : Value, a.LiesAt 3600 ⟨-3600000000000, 3600⟩ ∧
      b.LiesAt 3600 ⟨-3600000000000, 3600⟩ ∧ c.LiesAt 3600 ⟨-3600000000000, 7200⟩ ∧
      total (.atOffset ⟨.int 0, 0, .int 3600⟩) a b = .ok .eq ∧
      total (.atOffset ⟨.int 0, 0, .int 3600⟩) b c = .ok .gt := by
  let a : Value := .date (.int 0)
  let b : Value := .timestamp (.int 0) 0
  let c : Value := .timestampTz (.int 0) 3600000000000 (.int 7200)
  have ha : a.LiesAt 3600 ⟨-3600000000000, 3600⟩ := ⟨by rfl, rfl⟩
  have hb : b.LiesAt 3600 ⟨-3600000000000, 3600⟩ := ⟨⟨by rfl, by decide⟩, rfl⟩
  have hc : c.LiesAt 3600 ⟨-3600000000000, 7200⟩ := ⟨⟨by rfl, by decide, by decide⟩, rfl⟩
  have hzone := Zone.isFixed_fixed (.int 3600)
  have ho : IsOffset (Whole.int 3600).val := by decide
  let s : Session := .atOffset ⟨.int 0, 0, .int 3600⟩
  obtain ⟨hab, -, -⟩ := moment_order (s := s) hzone ho ha hb hc
  obtain ⟨hbc, -, -⟩ := moment_order (s := s) hzone ho hb hc ha
  exact ⟨a, b, c, ha, hb, hc, hab, hbc⟩

end Compare

end Datum
