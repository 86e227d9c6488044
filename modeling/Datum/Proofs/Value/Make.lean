import Datum.Value.Make
import Datum.Proofs.Json.Literals
import Datum.Proofs.Outcome
import Datum.Proofs.WellFormed

/-!
# Checked construction

What comes out of the checked constructors is well-formed, and so is every JSON literal that is
stored without a check.
-/

set_option autoImplicit false

namespace Datum

theorem IntervalFields.isValid_unsignedZero {q : Qualifier} {f : IntervalFields}
    (h : f.violation? q = none) : f.unsignedZero.IsValid q := by
  unfold unsignedZero
  split
  next hzero => exact ⟨h, if_pos hzero⟩
  next hzero => exact ⟨h, if_neg hzero⟩

@[simp] theorem Whole.val_int (n : Int) : (Whole.int n).val = n := rfl

theorem Whole.ofNum?_toNum (n : Whole) : ofNum? n.toNum = some n := by
  cases n <;> rfl

theorem Whole.toInt?_of_ofNum? {n : Num} {w : Whole} (h : ofNum? n = some w) :
    n.toInt? = some w.val := by
  cases n with
  | int i =>
    cases h
    rfl
  | real x proper =>
    simp only [ofNum?] at h
    split at h
    next hx =>
      cases h
      rw [Num.toInt?, hx]
      decide +kernel
    next => cases h

theorem Whole.toInt?_toNum (n : Whole) : n.toNum.toInt? = some n.val :=
  toInt?_of_ofNum? n.ofNum?_toNum

theorem Text.getLast?_dropTrailingSpaces (t : Text) :
    t.dropTrailingSpaces.getLast? ≠ some (unit ' ') := by
  intro hlast
  have hhead := List.head?_dropWhile_not (· == 0x20) t.reverse
  rw [dropTrailingSpaces, List.getLast?_reverse] at hlast
  rw [hlast] at hhead
  exact absurd hhead (by decide)

namespace Value

theorem checkDay_eq_ok {day : Num} {d : Whole} :
    checkDay day = .ok d ↔ Whole.ofNum? day = some d ∧ Num.isSafe d.val = true := by
  unfold checkDay
  cases Whole.ofNum? day with
  | none => simp
  | some w =>
    simp only [Option.some.injEq]
    split <;> grind [fail]

theorem checkNanos_eq_ok {nanos n : Int} : checkNanos nanos = .ok n ↔ nanos = n ∧ IsNanos n := by
  unfold checkNanos IsNanos
  split <;> grind [fail]

theorem checkOffset_eq_ok {offset : Num} {o : Whole} :
    checkOffset offset = .ok o ↔ Whole.ofNum? offset = some o ∧ IsOffset o.val := by
  unfold checkOffset IsOffset
  cases Whole.ofNum? offset with
  | none => simp
  | some w =>
    simp only [Option.some.injEq]
    split <;> grind [fail]

theorem checkDay_isSafe (day : Num) : Ensures (checkDay day) fun d => Num.isSafe d.val = true :=
  fun _ h => (checkDay_eq_ok.1 h).2

theorem checkNanos_isNanos (nanos : Int) : Ensures (checkNanos nanos) IsNanos :=
  fun _ h => (checkNanos_eq_ok.1 h).2

theorem checkOffset_isOffset (offset : Num) :
    Ensures (checkOffset offset) fun o => IsOffset o.val :=
  fun _ h => (checkOffset_eq_ok.1 h).2

theorem checkDay_of_isSafe {n : Int} (h : Num.isSafe n = true) : checkDay (.int n) = .ok n :=
  checkDay_eq_ok.2 ⟨rfl, h⟩

theorem checkNanos_of_isNanos {n : Int} (h : IsNanos n) : checkNanos n = .ok n :=
  checkNanos_eq_ok.2 ⟨rfl, h⟩

theorem checkOffset_of_isOffset {o : Int} (h : IsOffset o) : checkOffset (.int o) = .ok o :=
  checkOffset_eq_ok.2 ⟨rfl, h⟩

theorem ofDay_of_isSafe {n : Int} (h : Num.isSafe n = true) :
    ofDay (.int n) = .ok (.date (.int n)) := by
  rw [ofDay, checkDay_of_isSafe h]
  rfl

theorem ofTime_of_isNanos {n : Int} (h : IsNanos n) : ofTime n = .ok (.time n) := by
  rw [ofTime, checkNanos_of_isNanos h]
  rfl

theorem ofTimestamp_eq_ok {day : Num} {nanos : Int} {v : Value} :
    ofTimestamp day nanos = .ok v ↔ ∃ d, Whole.ofNum? day = some d ∧
      (timestamp d nanos).WellFormed ∧ v = .timestamp d nanos := by
  simp only [ofTimestamp, bind_eq_ok, checkDay_eq_ok, checkNanos_eq_ok, pure_eq_ok, Except.ok.injEq]
  constructor
  · rintro ⟨d, ⟨hd, hsafe⟩, n, ⟨rfl, hn⟩, rfl⟩
    exact ⟨d, hd, ⟨hsafe, hn⟩, rfl⟩
  · rintro ⟨d, hd, ⟨hsafe, hn⟩, rfl⟩
    exact ⟨d, ⟨hd, hsafe⟩, nanos, ⟨rfl, hn⟩, rfl⟩

theorem ofTimestampTz_eq_ok {day offset : Num} {nanos : Int} {v : Value} :
    ofTimestampTz day nanos offset = .ok v ↔
      ∃ d o, Whole.ofNum? day = some d ∧ Whole.ofNum? offset = some o ∧
        (timestampTz d nanos o).WellFormed ∧ v = .timestampTz d nanos o := by
  simp only [ofTimestampTz, bind_eq_ok, checkDay_eq_ok, checkNanos_eq_ok, checkOffset_eq_ok,
    pure_eq_ok, Except.ok.injEq]
  constructor
  · rintro ⟨d, ⟨hd, hsafe⟩, n, ⟨rfl, hn⟩, o, ⟨ho, hle⟩, rfl⟩
    exact ⟨d, o, hd, ho, ⟨hsafe, hn, hle⟩, rfl⟩
  · rintro ⟨d, o, hd, ho, ⟨hsafe, hn, hle⟩, rfl⟩
    exact ⟨d, ⟨hd, hsafe⟩, nanos, ⟨rfl, hn⟩, o, ⟨ho, hle⟩, rfl⟩

theorem ofDay_wellFormed (day : Num) : Ensures (ofDay day) WellFormed := by
  simp only [ofDay, ensures_bind, pure_eq_ok, ensures_ok]
  exact checkDay_isSafe day

theorem ofTime_wellFormed (nanos : Int) : Ensures (ofTime nanos) WellFormed := by
  simp only [ofTime, ensures_bind, pure_eq_ok, ensures_ok]
  exact checkNanos_isNanos nanos

theorem ofTimeTz_wellFormed (nanos : Int) (offset : Num) :
    Ensures (ofTimeTz nanos offset) WellFormed := by
  simp only [ofTimeTz, ensures_bind, pure_eq_ok, ensures_ok]
  refine (checkNanos_isNanos nanos).mono fun n hn => ?_
  exact (checkOffset_isOffset offset).mono fun o ho => ⟨hn, ho⟩

theorem ofTimestamp_wellFormed (day : Num) (nanos : Int) :
    Ensures (ofTimestamp day nanos) WellFormed := by
  intro v hv
  obtain ⟨d, -, hwell, rfl⟩ := ofTimestamp_eq_ok.1 hv
  exact hwell

theorem ofTimestampTz_wellFormed (day : Num) (nanos : Int) (offset : Num) :
    Ensures (ofTimestampTz day nanos offset) WellFormed := by
  intro v hv
  obtain ⟨d, o, -, -, hwell, rfl⟩ := ofTimestampTz_eq_ok.1 hv
  exact hwell

theorem ofFields_wellFormed (q : Qualifier) (f : IntervalFields) :
    Ensures (ofFields q f) WellFormed := by
  unfold ofFields
  split
  · simp
  · split
    · simp
    next h => exact (ensures_ok _ _).2 (IntervalFields.isValid_unsignedZero h)

theorem ofFields_of_isValid {q : Qualifier} {f : IntervalFields} (h : f.IsValid q) :
    ofFields q f = .ok (.interval q f) := by
  rw [ofFields, if_neg (Int.not_lt.2 h.leading_le), h.inRange, h.unsigned]

theorem ofAbsolute_wellFormed (q : Qualifier) (n : Int) : Ensures (ofAbsolute q n) WellFormed :=
  ofFields_wellFormed q _

theorem ofText_wellFormed (k : StringKind) (t : Text) : (ofText k t).WellFormed := by
  cases k with
  | varchar | varcharIgnoreCase => trivial
  | char => exact Text.getLast?_dropTrailingSpaces t

theorem ofJsonBytes_wellFormed (data : Bytes) : Ensures (ofJsonBytes data) WellFormed := by
  simp only [ofJsonBytes]
  split
  next h => exact (ensures_ok _ _).2 h
  · simp

theorem jsonLiteral_wellFormed {t : Text} (h : Json.IsLiteral t) : (jsonLiteral t).WellFormed :=
  h.isValid_decode

theorem jsonBoolean_wellFormed (b : Bool) : (jsonBoolean b).WellFormed :=
  jsonLiteral_wellFormed (Json.isLiteral_bool b)

theorem jsonString_wellFormed (t : Text) : (jsonString t).WellFormed :=
  jsonLiteral_wellFormed (Json.isLiteral_quote t)

theorem jsonInteger_wellFormed (n : Int) : (jsonInteger n).WellFormed :=
  jsonLiteral_wellFormed (Json.isLiteral_ofInt n)

theorem jsonDecimal_wellFormed (d : Decimal) : (jsonDecimal d).WellFormed :=
  jsonLiteral_wellFormed (Json.isLiteral_decimal d)

end Value

end Datum
