import Datum.Result
import Mathlib.Data.List.Basic

/-!
# Reading a result

What a reader sees of a cursor while columns and rows are added in between. Since the cursor was last
rewound, it has delivered the rows in order, each once, but for those that were added just when it
stood past the end: each end that is found takes the place of the next row that comes. A reader who
finds no end before the last row has been added sees every row.
-/

set_option autoImplicit false

namespace Datum.Cursor

inductive Call where
  | addColumn (column : Column)
  | addRow (fields : List Value)
  | hasNext
  | next
  | reset
  | currentRow

def step (c : Cursor) : Call → Cursor
  | .addColumn column => c.addColumn column
  | .addRow fields =>
    match c.addRow fields with
    | .ok longer => longer
    | .error _ => c
  | .hasNext | .currentRow => c
  | .next => c.next.2
  | .reset => c.reset

inductive Move where
  | row (read : Outcome (List Value))
  | ended (count : Nat)

def move (c : Cursor) : Move :=
  if c.next.1 then .row c.next.2.currentRow else .ended c.rows.length

/-- A cursor, and its moves since it was made or last rewound. -/
structure Reading where
  cursor : Cursor
  moves : List Move

namespace Reading

def start (columns : List Column) (rows : List (List Value)) : Reading := ⟨.ofRows columns rows, []⟩

def step (r : Reading) (call : Call) : Reading where
  cursor := r.cursor.step call
  moves :=
    match call with
    | .next => r.moves ++ [r.cursor.move]
    | .reset => []
    | _ => r.moves

def after (r : Reading) (calls : List Call) : Reading := calls.foldl step r

def delivered (moves : List Move) : List (Outcome (List Value)) :=
  moves.filterMap fun
    | .row read => some read
    | .ended _ => none

def ends (moves : List Move) : List Nat :=
  moves.filterMap fun
    | .row _ => none
    | .ended count => some count

variable (moves : List Move)

theorem delivered_row (read : Outcome (List Value)) :
    delivered (moves ++ [.row read]) = delivered moves ++ [read] := by
  simp [delivered]

theorem delivered_ended (count : Nat) : delivered (moves ++ [.ended count]) = delivered moves := by
  simp [delivered]

theorem ends_row (read : Outcome (List Value)) : ends (moves ++ [.row read]) = ends moves := by
  simp [ends]

theorem ends_ended (count : Nat) : ends (moves ++ [.ended count]) = ends moves ++ [count] := by
  simp [ends]

end Reading

open Reading

def rowsBut (places : List Nat) (rows : List (List Value)) (count : Nat) : List (List Value) :=
  (List.range count).filterMap fun i => if i ∈ places then none else rows[i]?

section RowsBut

variable {places : List Nat} {rows : List (List Value)} {count : Nat}

theorem rowsBut_succ : rowsBut places rows (count + 1) =
    rowsBut places rows count ++ (if count ∈ places then none else rows[count]?).toList := by
  rw [rowsBut, List.range_succ, List.filterMap_append, rowsBut]
  cases hrow : (if count ∈ places then none else rows[count]?) <;> simp [hrow]

theorem rowsBut_congr {places' : List Nat} {rows' : List (List Value)}
    (h : ∀ i < count, (if i ∈ places then none else rows[i]?) =
      if i ∈ places' then none else rows'[i]?) :
    rowsBut places rows count = rowsBut places' rows' count :=
  List.filterMap_congr fun i hi => h i (List.mem_range.1 hi)

theorem rowsBut_eq_take (h : ∀ n ∈ places, rows.length ≤ n) :
    rowsBut places rows count = rows.take count := by
  induction count with
  | zero => simp [rowsBut]
  | succ count ih =>
    rw [rowsBut_succ, ih, List.take_add_one]
    split
    next hmem => rw [List.getElem?_eq_none (h count hmem)]
    next => rfl

end RowsBut

section Next

variable {c : Cursor}

theorem hasNext_eq_next (c : Cursor) : c.hasNext = c.next.1 := by
  simp only [hasNext, next]
  split <;> simp only [decide_eq_decide] <;> omega

theorem currentRow_eq_ok {fields : List Value} :
    c.currentRow = .ok fields ↔ ∃ n, c.passed = n + 1 ∧ c.rows[n]? = some fields := by
  unfold currentRow
  split
  next hzero => simp [hzero]
  next n hsucc =>
    split
    next found hfound => simp [hsucc, hfound]
    next hnone => simp [hsucc, hnone]

theorem next_of_lt (h : c.passed < c.rows.length) :
    c.next = (true, { c with passed := c.passed + 1 }) := by
  simp [next, Nat.le_of_lt h, Nat.succ_le_of_lt h]

theorem next_of_le (h : c.rows.length ≤ c.passed) (hle : c.passed ≤ c.rows.length + 1) :
    c.next = (false, { c with passed := c.rows.length + 1 }) := by
  rcases Nat.eq_or_lt_of_le h with heq | hlt
  · simp [next, ← heq]
  · have hpast : c.passed = c.rows.length + 1 := by omega
    simp [next, ← hpast, Nat.not_le.2 hlt]

theorem move_of_lt (h : c.passed < c.rows.length) : c.move = .row (.ok c.rows[c.passed]) := by
  rw [move, next_of_lt h, if_pos rfl]
  congr 1
  exact currentRow_eq_ok.2 ⟨c.passed, rfl, List.getElem?_eq_getElem h⟩

theorem move_of_le (h : c.rows.length ≤ c.passed) (hle : c.passed ≤ c.rows.length + 1) :
    c.move = .ended c.rows.length := by
  rw [move, next_of_le h hle]
  rfl

end Next

def StandsAt (c : Cursor) : Option Move → Prop
  | none => c.passed = 0
  | some (.row read) =>
    ∃ n fields, c.passed = n + 1 ∧ c.rows[n]? = some fields ∧ read = .ok fields
  | some (.ended n) => c.passed = n + 1

structure Agrees (r : Reading) : Prop where
  stands : r.cursor.StandsAt r.moves.getLast?
  passed_le : r.cursor.passed ≤ r.cursor.rows.length + 1
  ends_lt : ∀ n ∈ ends r.moves, n < r.cursor.passed
  past : r.cursor.passed = r.cursor.rows.length + 1 → r.cursor.rows.length ∈ ends r.moves
  delivered : delivered r.moves =
    (rowsBut (ends r.moves) r.cursor.rows r.cursor.passed).map .ok

namespace Agrees

variable {r : Reading}

theorem start (columns : List Column) (rows : List (List Value)) :
    Agrees (.start columns rows) where
  stands := rfl
  passed_le := Nat.zero_le _
  ends_lt n hn := by simp [Reading.start, ends] at hn
  past h := absurd h (Nat.succ_ne_zero _).symm
  delivered := rfl

theorem addRow (h : Agrees r) (fields : List Value) :
    Agrees { r with cursor := { r.cursor with rows := r.cursor.rows ++ [fields] } } where
  stands := by
    have hstands := h.stands
    cases hlast : r.moves.getLast? with
    | none => simpa [StandsAt, hlast] using hstands
    | some move =>
      cases move with
      | ended n => simpa [StandsAt, hlast] using hstands
      | row read =>
        rw [hlast] at hstands
        obtain ⟨n, found, hpassed, hfound, hread⟩ := hstands
        obtain ⟨hlt, -⟩ := List.getElem?_eq_some_iff.1 hfound
        exact ⟨n, found, hpassed, (List.getElem?_append_left hlt).trans hfound, hread⟩
  passed_le := by
    have := h.passed_le
    simp only [List.length_append]
    omega
  ends_lt := h.ends_lt
  past hpassed := by
    have := h.passed_le
    simp only [List.length_append, List.length_singleton] at hpassed
    omega
  delivered := by
    rw [h.delivered]
    congr 1
    -- past the end the place of the new row is that of an end, which is left out
    refine rowsBut_congr fun i hi => ?_
    split
    · rfl
    next hmem =>
      have hlt : i < r.cursor.rows.length := by
        have hle := h.passed_le
        have hne : i ≠ r.cursor.rows.length := by
          rintro rfl
          exact hmem (h.past (by omega))
        omega
      exact (List.getElem?_append_left hlt).symm

theorem next_of_lt (h : Agrees r) (hlt : r.cursor.passed < r.cursor.rows.length) :
    Agrees (r.step .next) := by
  have hnew : r.cursor.passed ∉ ends r.moves := fun hmem => Nat.lt_irrefl _ (h.ends_lt _ hmem)
  have hrow := List.getElem?_eq_getElem hlt
  simp only [Reading.step, Cursor.step, Cursor.next_of_lt hlt, move_of_lt hlt]
  refine ⟨?_, Nat.succ_le_succ (Nat.le_of_lt hlt), fun n hn => ?_, fun hpast => ?_, ?_⟩
  · rw [List.getLast?_concat]
    exact ⟨_, _, rfl, hrow, rfl⟩
  · rw [ends_row] at hn
    exact Nat.lt_succ_of_lt (h.ends_lt n hn)
  · exact absurd hpast (by simp only; omega)
  · rw [delivered_row, ends_row, h.delivered, rowsBut_succ, if_neg hnew, hrow]
    simp

/-- The end that is found is a place of its own, which no row has been delivered from. -/
theorem rowsBut_ended (h : Agrees r) (hle : r.cursor.rows.length ≤ r.cursor.passed) :
    rowsBut (ends r.moves ++ [r.cursor.rows.length]) r.cursor.rows (r.cursor.rows.length + 1) =
      rowsBut (ends r.moves) r.cursor.rows r.cursor.passed := by
  have hsame {n : Nat} (hn : n ≤ r.cursor.passed) :
      rowsBut (ends r.moves ++ [r.cursor.rows.length]) r.cursor.rows n =
        rowsBut (ends r.moves) r.cursor.rows n := by
    refine rowsBut_congr fun i hi => ?_
    by_cases hend : i = r.cursor.rows.length
    · rw [hend, List.getElem?_eq_none (Nat.le_refl _)]
      simp
    · simp [hend]
  rcases Nat.eq_or_lt_of_le hle with heq | hlt
  · rw [rowsBut_succ, if_pos (by simp), Option.toList_none, List.append_nil, hsame hle, heq]
  · have hpast : r.cursor.passed = r.cursor.rows.length + 1 := by
      have := h.passed_le
      omega
    rw [hpast]
    exact hsame (Nat.le_of_eq hpast.symm)

theorem next_of_le (h : Agrees r) (hle : r.cursor.rows.length ≤ r.cursor.passed) :
    Agrees (r.step .next) := by
  simp only [Reading.step, Cursor.step, Cursor.next_of_le hle h.passed_le,
    move_of_le hle h.passed_le]
  refine ⟨?_, Nat.le_refl _, fun n hn => ?_, fun _ => ?_, ?_⟩
  · rw [List.getLast?_concat]
    rfl
  · have hbefore := h.passed_le
    rw [ends_ended, List.mem_append, List.mem_singleton] at hn
    rcases hn with hn | rfl
    · exact Nat.lt_of_lt_of_le (h.ends_lt n hn) hbefore
    · exact Nat.lt_succ_self _
  · rw [ends_ended]
    exact List.mem_append_right _ (List.mem_singleton_self _)
  · rw [delivered_ended, ends_ended, h.delivered, h.rowsBut_ended hle]

theorem next (h : Agrees r) : Agrees (r.step .next) :=
  (Nat.lt_or_ge r.cursor.passed r.cursor.rows.length).elim h.next_of_lt h.next_of_le

theorem step (h : Agrees r) (call : Call) : Agrees (r.step call) := by
  cases call with
  | addColumn column => exact ⟨h.stands, h.passed_le, h.ends_lt, h.past, h.delivered⟩
  | hasNext => exact h
  | currentRow => exact h
  | reset => exact ⟨rfl, Nat.zero_le _, by simp [Reading.step, ends],
      fun hzero => absurd hzero (Nat.succ_ne_zero _).symm, rfl⟩
  | next => exact h.next
  | addRow fields =>
    simp only [Reading.step, Cursor.step, Cursor.addRow]
    by_cases hwidth : fields.length = r.cursor.columns.length
    · simp only [if_pos hwidth]
      exact h.addRow fields
    · simp only [if_neg hwidth]
      exact h

theorem after (h : Agrees r) (calls : List Call) : Agrees (r.after calls) := by
  induction calls generalizing r with
  | nil => exact h
  | cons call rest ih => exact ih (h.step call)

theorem currentRow_iff (h : Agrees r) : (∃ fields, r.cursor.currentRow = .ok fields) ↔
    (∃ read, r.moves.getLast? = some (.row read)) ∨
      ∃ n < r.cursor.rows.length, r.moves.getLast? = some (.ended n) := by
  have hstands := h.stands
  simp only [currentRow_eq_ok]
  cases hlast : r.moves.getLast? with
  | none =>
    rw [hlast] at hstands
    have hzero : r.cursor.passed = 0 := hstands
    simp [hzero]
  | some move =>
    rw [hlast] at hstands
    cases move with
    | row read =>
      obtain ⟨n, fields, hpassed, hrow, -⟩ := hstands
      exact ⟨fun _ => .inl ⟨read, rfl⟩, fun _ => ⟨fields, n, hpassed, hrow⟩⟩
    | ended n =>
      have hpassed : r.cursor.passed = n + 1 := hstands
      simp [hpassed, List.getElem?_eq_some_iff]

theorem currentRow_eq (h : Agrees r) {read : Outcome (List Value)}
    (hlast : r.moves.getLast? = some (.row read)) : r.cursor.currentRow = read := by
  have hstands := h.stands
  rw [hlast] at hstands
  obtain ⟨n, fields, hpassed, hrow, rfl⟩ := hstands
  exact currentRow_eq_ok.2 ⟨n, hpassed, hrow⟩

theorem delivered_eq_take (h : Agrees r)
    (hsettled : ∀ n ∈ ends r.moves, n = r.cursor.rows.length) :
    Reading.delivered r.moves = (r.cursor.rows.take r.cursor.passed).map .ok := by
  rw [h.delivered, rowsBut_eq_take fun n hn => Nat.le_of_eq (hsettled n hn).symm]

end Agrees

/-- What a reader sees of a result after any calls. `hasNext` foretells `next`. The rows delivered
since the last rewinding are all that the cursor has passed, in order, but for those at the places of
the ends that were found, and a row can be read just if the last move brought one or a row has come
to where it ended. So a reader who has found no end that a row was then added to can read just if the
last move brought a row, has been given the first rows one after the other, and at an end all. -/
theorem reads_rows (columns : List Column) (rows : List (List Value)) (calls : List Call) :
    let r := (Reading.start columns rows).after calls
    r.cursor.hasNext = r.cursor.next.1 ∧
    delivered r.moves = (rowsBut (ends r.moves) r.cursor.rows r.cursor.passed).map .ok ∧
    ((∃ fields, r.cursor.currentRow = .ok fields) ↔
      (∃ read, r.moves.getLast? = some (.row read)) ∨
        ∃ n < r.cursor.rows.length, r.moves.getLast? = some (.ended n)) ∧
    (∀ read, r.moves.getLast? = some (.row read) → r.cursor.currentRow = read) ∧
    ((∀ n ∈ ends r.moves, n = r.cursor.rows.length) →
      ((∃ fields, r.cursor.currentRow = .ok fields) ↔
        ∃ read, r.moves.getLast? = some (.row read)) ∧
      delivered r.moves = (r.cursor.rows.take (delivered r.moves).length).map .ok ∧
      (ends r.moves ≠ [] → delivered r.moves = r.cursor.rows.map .ok)) := by
  intro r
  have h : Agrees r := (Agrees.start columns rows).after calls
  refine ⟨hasNext_eq_next _, h.delivered, h.currentRow_iff, fun read => h.currentRow_eq,
    fun hsettled => ⟨?_, ?_, fun hends => ?_⟩⟩
  · rw [h.currentRow_iff, or_iff_left]
    rintro ⟨n, hlt, hlast⟩
    have hmem : n ∈ ends r.moves := List.mem_filterMap.2 ⟨_, List.mem_of_getLast? hlast, rfl⟩
    exact Nat.ne_of_lt hlt (hsettled n hmem)
  · rw [h.delivered_eq_take hsettled, List.length_map, List.length_take]
    congr 1
    rw [List.take_eq_take_iff, Nat.min_assoc, Nat.min_self]
  · obtain ⟨n, hn⟩ := List.exists_mem_of_ne_nil _ hends
    have hpast := h.ends_lt n hn
    rw [hsettled n hn] at hpast
    rw [h.delivered_eq_take hsettled, List.take_of_length_le (Nat.le_of_lt hpast)]

theorem reads_rows_of_added_row :
    let r := (Reading.start [⟨"X", .ofKind .boolean⟩] [[.boolean false]]).after
      [.next, .addRow [.boolean true], .next, .next]
    (∀ n ∈ ends r.moves, n = r.cursor.rows.length) ∧ ends r.moves = [2] ∧
      delivered r.moves = [.ok [.boolean false], .ok [.boolean true]] := by
  intro r
  have hends : ends r.moves = [2] := rfl
  have hsettled : ∀ n ∈ ends r.moves, n = r.cursor.rows.length := by
    rw [hends]
    exact fun n hn => List.mem_singleton.1 hn
  obtain ⟨-, -, -, -, hall⟩ := reads_rows [⟨"X", .ofKind .boolean⟩] [[.boolean false]]
    [.next, .addRow [.boolean true], .next, .next]
  obtain ⟨-, -, hdelivered⟩ := hall hsettled
  exact ⟨hsettled, hends, hdelivered (by rw [hends]; exact List.cons_ne_nil _ _)⟩

/-- A row that is added where the end was found can be read although no call of `next` has brought
it, and the next call passes over it. -/
theorem added_row_is_passed_over :
    let r := (Reading.start [⟨"X", .ofKind .boolean⟩] []).after [.next, .addRow [.boolean false]]
    let s := r.after [.addRow [.boolean true], .next]
    r.moves = [.ended 0] ∧ r.cursor.currentRow = .ok [.boolean false] ∧
      r.cursor.hasNext = false ∧
      s.moves = [.ended 0, .row (.ok [.boolean true])] ∧
      s.cursor.rows = [[.boolean false], [.boolean true]] :=
  ⟨rfl, rfl, rfl, rfl, rfl⟩

end Datum.Cursor
