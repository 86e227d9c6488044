import Datum.Proofs.Compare.Promotion
import Datum.Proofs.Convert.NumericIntervals

/-!
# Comparison of intervals

The kinds of a family are promoted to those with a finer last field, so that intervals compare by
their lengths unless one is too long for the higher kind. A decimal compared with an interval
becomes an interval; the decimal of an interval may be one that is shorter than it.
-/

set_option autoImplicit false

namespace Datum

variable {p q : Qualifier} {f g : IntervalFields}

namespace Qualifier

theorem finestUnit_le_of_rank_lt (hfamily : p.isYearMonth = q.isYearMonth)
    (hlt : (Kind.interval p).rank < (Kind.interval q).rank) : q.finestUnit ≤ p.finestUnit := by
  revert hfamily hlt
  cases p <;> cases q <;> decide

end Qualifier

namespace Compare

/-- The higher kind of two has no room for the leading units of an interval. -/
def Outgrows (p : Qualifier) (f : IntervalFields) (q : Qualifier) : Prop :=
  (Kind.interval p).rank < (Kind.interval q).rank ∧
    10 ^ 18 * q.leadingUnit ≤ (f.toAbsolute p).natAbs

instance (p : Qualifier) (f : IntervalFields) (q : Qualifier) : Decidable (Outgrows p f q) :=
  inferInstanceAs (Decidable (_ ∧ _))

def tooLong (q : Qualifier) (n : Int) : ValueError :=
  .numericOverflow ((if n < 0 then ("-" : Text) else []) ++ Text.ofInt (n.natAbs / q.leadingUnit)) []

theorem convert_promoted {c : ConvertContext} (hc : c.extension = none) (hf : f.IsValid p)
    (hfamily : p.isYearMonth = q.isYearMonth)
    (hlt : (Kind.interval p).rank < (Kind.interval q).rank) :
    Outgrows p f q ∧
      convert (.interval p f) (.interval q) c = fail (tooLong q (f.toAbsolute p)) ∨
    ¬ Outgrows p f q ∧ ∃ h : IntervalFields,
      convert (.interval p f) (.interval q) c = .ok (.interval q h) ∧
        h.toAbsolute q = f.toAbsolute p := by
  have hunits := Qualifier.finestUnit_dvd hfamily (Qualifier.finestUnit_le_of_rank_lt hfamily hlt)
  have hexact : q.finestUnit ∣ f.toAbsolute p :=
    Int.dvd_trans hunits (IntervalFields.finestUnit_dvd_toAbsolute hf.inRange)
  have houtgrows : Outgrows p f q ↔ ¬ q.Holds (f.toAbsolute p) := by
    rw [Qualifier.holds_iff, Int.not_lt]
    exact and_iff_right hlt
  rw [houtgrows, not_not, convert_interval_family hc hf hfamily]
  rcases em (q.Holds (f.toAbsolute p)) with hholds | hlong
  · refine .inr ⟨hholds, _, Value.ofAbsolute_of_le hholds, ?_⟩
    rw [IntervalFields.toAbsolute_unsignedZero, IntervalFields.toAbsolute_ofAbsolute_of_dvd hexact]
  · exact .inl ⟨hlong, Value.ofAbsolute_of_lt (Int.not_le.1 hlong)⟩

/-- What is done with a promoted interval depends on its length alone, if it is not too long. -/
theorem convert_promoted_bind {c : ConvertContext} (hc : c.extension = none) (hf : f.IsValid p)
    (hfamily : p.isYearMonth = q.isYearMonth)
    (hlt : (Kind.interval p).rank < (Kind.interval q).rank)
    {order : Value → Outcome Ordering} {o : Ordering}
    (h : ∀ g : IntervalFields, g.toAbsolute q = f.toAbsolute p → order (.interval q g) = .ok o) :
    (convert (.interval p f) (.interval q) c >>= order) =
      if Outgrows p f q then fail (tooLong q (f.toAbsolute p)) else .ok o := by
  rcases convert_promoted hc hf hfamily hlt with ⟨hlong, hfail⟩ | ⟨hnot, g, hok, hlength⟩
  · rw [hfail, if_pos hlong]
    rfl
  · rw [hok, if_neg hnot, ok_bind, h g hlength]

section Order

variable (s : Session)

theorem total_same_interval (q : Qualifier) (f g : IntervalFields) :
    total s (.interval q f) (.interval q g) =
      .ok (Ord.compare (f.toAbsolute q) (g.toAbsolute q)) := by
  rw [total_of_not_null rfl rfl rfl, ← Convert.typeSafe_interval s]
  exact afterCoercion_same s _ rfl fun _ _ h => nomatch h

theorem not_outgrows_of_lt_rank (hlt : (Kind.interval q).rank < (Kind.interval p).rank) :
    ¬ Outgrows p f q :=
  fun h => Nat.lt_asymm hlt h.1

theorem total_of_rank_lt (hf : f.IsValid p) (hfamily : p.isYearMonth = q.isYearMonth)
    (hlt : (Kind.interval p).rank < (Kind.interval q).rank) :
    total s (.interval p f) (.interval q g) =
      if Outgrows p f q then fail (tooLong q (f.toAbsolute p))
      else .ok (Ord.compare (f.toAbsolute p) (g.toAbsolute q)) := by
  have hpromote := withCoercion_of_rank_lt (s := s) (v := .interval p f) (w := .interval q g) hlt
    (by simp [Value.kind])
  rw [total_of_not_null rfl rfl rfl, hpromote]
  refine convert_promoted_bind rfl hf hfamily hlt fun h hlength => ?_
  rw [Convert.typeSafe_interval, hlength]

theorem total_of_lt_rank (hg : g.IsValid q) (hfamily : p.isYearMonth = q.isYearMonth)
    (hlt : (Kind.interval q).rank < (Kind.interval p).rank) :
    total s (.interval p f) (.interval q g) =
      if Outgrows q g p then fail (tooLong p (g.toAbsolute q))
      else .ok (Ord.compare (f.toAbsolute p) (g.toAbsolute q)) := by
  have hpromote := withCoercion_of_lt_rank (s := s) (v := .interval p f) (w := .interval q g) hlt
    (by simp [Value.kind])
  rw [total_of_not_null rfl rfl rfl, hpromote]
  refine convert_promoted_bind rfl hg hfamily.symm hlt fun h hlength => ?_
  rw [Convert.typeSafe_interval, hlength]

/-- Intervals of a family compare by their lengths, unless the one of the lower kind is too long for
the higher. -/
theorem interval_order (hf : f.IsValid p) (hg : g.IsValid q)
    (hfamily : p.isYearMonth = q.isYearMonth) :
    let order := total s (.interval p f) (.interval q g)
    let x := f.toAbsolute p
    let y := g.toAbsolute q
    (order = if Outgrows p f q then fail (tooLong q x)
      else if Outgrows q g p then fail (tooLong p y)
      else .ok (Ord.compare x y)) ∧
    (order = .ok .eq → x = y) := by
  intro order x y
  have horder : order = if Outgrows p f q then fail (tooLong q x)
      else if Outgrows q g p then fail (tooLong p y)
      else .ok (Ord.compare x y) := by
    rcases Nat.lt_trichotomy (Kind.interval p).rank (Kind.interval q).rank with hlt | heq | hgt
    · rw [if_neg (not_outgrows_of_lt_rank (p := q) hlt)]
      exact total_of_rank_lt s hf hfamily hlt
    · obtain rfl : p = q := Kind.interval.inj (Kind.rank_inj heq)
      rw [if_neg fun h => Nat.lt_irrefl _ h.1, if_neg fun h => Nat.lt_irrefl _ h.1]
      exact total_same_interval s p f g
    · rw [if_neg (not_outgrows_of_lt_rank hgt)]
      exact total_of_lt_rank s hg hfamily hgt
  refine ⟨horder, fun heq => ?_⟩
  rw [horder] at heq
  split at heq
  · exact (fail_ne_ok _ _ heq).elim
  split at heq
  · exact (fail_ne_ok _ _ heq).elim
  · exact compare_eq_iff_eq.1 (Except.ok.inj heq)

/-- A day and a half is 36 hours; the most days there are have no room in seconds. -/
theorem interval_order_of_days :
    let most : IntervalFields := ⟨false, 999999999999999999, 0⟩
    total (.system 0 0) (.interval .dayToHour ⟨true, 1, 12⟩) (.interval .hour ⟨true, 36, 0⟩) =
      .ok .eq ∧
    total (.system 0 0) (.interval .second ⟨false, 0, 1⟩) (.interval .day most) =
      fail (tooLong .second (most.toAbsolute .day)) := by
  intro most
  constructor
  · obtain ⟨horder, -⟩ := interval_order (p := .dayToHour) (f := ⟨true, 1, 12⟩) (q := .hour)
      (g := ⟨true, 36, 0⟩) (.system 0 0) ⟨rfl, rfl⟩ ⟨rfl, rfl⟩ rfl
    rw [horder, if_neg (by decide), if_neg (by decide)]
    rfl
  · obtain ⟨horder, -⟩ := interval_order (p := .second) (f := ⟨false, 0, 1⟩) (q := .day)
      (g := most) (.system 0 0) ⟨rfl, rfl⟩ ⟨rfl, rfl⟩ rfl
    rw [horder, if_neg (by decide), if_pos (by decide)]

theorem rank_numeric_lt (q : Qualifier) : Kind.numeric.rank < (Kind.interval q).rank := by
  cases q <;> decide

theorem total_interval_numeric {d : Decimal}
    (h : convert (.numeric d) (.interval q) (.ofSession s) = .ok (.interval q g)) :
    total s (.interval q f) (.numeric d) =
      .ok (Ord.compare (f.toAbsolute q) (g.toAbsolute q)) := by
  have hpromote := withCoercion_of_lt_rank (s := s) (v := .interval q f) (w := .numeric d)
    (rank_numeric_lt q) (by simp [Value.kind])
  rw [total_of_not_null rfl rfl rfl, hpromote, ← Convert.typeSafe_interval s]
  exact congrArg (· >>= _) h

/-- An interval that ends in hours or minutes equals its decimal unless the digits of that stop
short of it. It is then a unit of the last field longer than what the decimal converts to. -/
theorem interval_and_decimal (hq : q ∈ Qualifier.coarse) (hf : f.IsValid q)
    (c c' : ConvertContext) : ∃ d,
    convert (.interval q f) .numeric c = .ok (.numeric d) ∧
    (¬ f.StopsShort q → convert (.numeric d) (.interval q) c' = .ok (.interval q f) ∧
      total s (.interval q f) (.numeric d) = .ok .eq) ∧
    (f.StopsShort q →
      convert (.numeric d) (.interval q) c' = .ok (.interval q f.shortened.unsignedZero) ∧
      total s (.interval q f) (.numeric d) = .ok (if f.negative then .lt else .gt)) := by
  have hback := Convert.convert_toDecimal_of_coarse hq hf
  have horder := total_interval_numeric (f := f) s (hback (.ofSession s))
  rw [IntervalFields.toAbsolute_throughDecimal hf.inRange] at horder
  refine ⟨_, Convert.convert_interval_numeric q f c, fun hlong => ⟨?_, ?_⟩,
    fun hshort => ⟨?_, ?_⟩⟩
  · rw [hback, IntervalFields.throughDecimal, if_neg hlong]
  · rw [horder, if_neg hlong, Int.sub_zero, compare_eq_iff_eq.2 rfl]
  · rw [hback, IntervalFields.throughDecimal, if_pos hshort]
  · have hunit := q.finestUnit_pos
    rw [horder, if_pos hshort, IntervalFields.factor]
    split
    · rw [compare_lt_iff_lt.2 (by omega)]
    · rw [compare_gt_iff_gt.2 (by omega)]

theorem interval_and_decimal_of_hour : ∃ d,
    let v := Value.interval .dayToHour ⟨true, 0, 1⟩
    let c := ConvertContext.ofSession (.system 0 0)
    convert v .numeric c = .ok (.numeric d) ∧
      convert (.numeric d) (.interval .dayToHour) c = .ok (.interval .dayToHour ⟨false, 0, 0⟩) ∧
      total (.system 0 0) v (.numeric d) = .ok .lt := by
  obtain ⟨d, hd, -, hshort⟩ := interval_and_decimal (q := .dayToHour) (f := ⟨true, 0, 1⟩)
    (.system 0 0) (by decide) ⟨rfl, rfl⟩ (.ofSession (.system 0 0)) (.ofSession (.system 0 0))
  obtain ⟨hback, horder⟩ := hshort (by decide)
  exact ⟨d, hd, hback, horder⟩

/-- An hour and 20 minutes are more than their decimal. -/
theorem interval_exceeds_decimal :
    let v := Value.interval .hourToMinute ⟨false, 1, 20⟩
    let d := Value.numeric ⟨133, 2⟩
    let c := ConvertContext.ofSession (.system 0 0)
    convert v .numeric c = .ok d ∧
      convert d (.interval .hourToMinute) c = .ok (.interval .hourToMinute ⟨false, 1, 19⟩) ∧
      total (.system 0 0) v d = .ok .gt :=
  ⟨rfl, rfl, rfl⟩

end Order

end Compare

end Datum
