import Datum.Proofs.Convert.Kind
import Datum.Proofs.Cursor
import Mathlib.Logic.Function.Basic

/-!
# Rows and results

A row becomes a result and a result a row through cursors. A value keeps a cursor of its own, and
whoever reads it moves a copy. Here the cursors have places, so that it can be said which of them a
reader moves: a conversion gives what the rows of the value say, whatever the readers have done
before, and moves no cursor that is in somebody's hands.
-/

set_option autoImplicit false

namespace Datum

namespace Cursor

def onlyRow (c : Cursor) : Outcome Value × Cursor :=
  let (found, c) := c.next
  if found then
    match c.currentRow with
    | .ok fields => (if c.hasNext then fail .scalarCardinality else .ok (.row fields), c)
    | .error e => (.error e, c)
  else (.ok .null, c)

theorem lt_of_next {c : Cursor} (h : c.next.1 = true) : c.passed < c.rows.length :=
  of_decide_eq_true ((hasNext_eq_next c).trans h)

def readRest (c : Cursor) : List (Outcome (List Value)) × Cursor :=
  if _found : c.next.1 = true then
    let (rest, last) := c.next.2.readRest
    (c.next.2.currentRow :: rest, last)
  else ([], c.next.2)
termination_by c.rows.length - c.passed
decreasing_by
  have hlt := lt_of_next _found
  rw [next_of_lt hlt]
  exact Nat.sub_lt_sub_left hlt (Nat.lt_succ_self _)

variable (c : Cursor)

theorem onlyRow_copy (mark : Nat) : c.copy.onlyRow.1 = Convert.toRow (c.toValue mark) := by
  rcases c with ⟨columns, rows, passed⟩
  match rows with
  | [] | [_] | _ :: _ :: _ => rfl

theorem readRest_eq_drop : c.readRest.1 = (c.rows.drop c.passed).map .ok := by
  fun_induction readRest c with
  | case1 c hfound rest last hrest ih =>
    have hlt := lt_of_next hfound
    rw [hrest] at ih
    rw [next_of_lt hlt] at ih ⊢
    have hrow : currentRow { c with passed := c.passed + 1 } = .ok c.rows[c.passed] :=
      currentRow_eq_ok.2 ⟨c.passed, rfl, List.getElem?_eq_getElem hlt⟩
    rw [hrow, List.drop_eq_getElem_cons hlt, List.map_cons, ← ih]
  | case2 c hfound =>
    have hle : ¬ c.passed < c.rows.length := fun hlt => hfound (by rw [next_of_lt hlt])
    rw [List.drop_eq_nil_of_le (Nat.not_lt.1 hle), List.map_nil]

/-- Cursors at places: one that a value keeps, and those that its readers have in their hands. -/
structure Readers where
  cursors : Nat → Cursor
  /-- How many places have been used. -/
  size : Nat
  kept : Nat
  given : List Nat

inductive Use where
  | toRow
  | readRows
  | take
  | call (reader : Nat) (call : Call)

namespace Readers

def ofCursor (c : Cursor) : Readers where
  cursors := Function.update (fun _ => c) 1 c.copy
  size := 2
  kept := 1
  given := [0]

def copy (r : Readers) : Readers :=
  { r with
    cursors := Function.update r.cursors r.size (r.cursors r.kept).copy
    size := r.size + 1 }

def readAt {α : Type} (r : Readers) (place : Nat) (read : Cursor → α × Cursor) : α × Readers :=
  let (answer, c) := read (r.cursors place)
  (answer, { r with cursors := Function.update r.cursors place c })

def toRow (r : Readers) : Outcome Value × Readers := r.copy.readAt r.size onlyRow

def readRows (r : Readers) : List (Outcome (List Value)) × Readers := r.copy.readAt r.size readRest

def take (r : Readers) : Cursor × Readers :=
  (r.copy.cursors r.size, { r.copy with given := r.given ++ [r.size] })

def step (r : Readers) : Use → Readers
  | .toRow => r.toRow.2
  | .readRows => r.readRows.2
  | .take => r.take.2
  | .call reader call =>
    match r.given[reader]? with
    | some place => (r.readAt place fun c => ((), c.step call)).2
    | none => r

def after (r : Readers) (uses : List Use) : Readers := uses.foldl step r

/-- The kept cursor is as it was made, and in nobody's hands. -/
structure Keeps (r : Readers) (c : Cursor) : Prop where
  cursor : r.cursors r.kept = c
  kept_lt : r.kept < r.size
  given_lt : ∀ place ∈ r.given, place < r.size
  notMem : r.kept ∉ r.given

section Reading

variable {r : Readers} {c : Cursor} {α : Type}

theorem copy_cursors_of_lt {place : Nat} (h : place < r.size) :
    r.copy.cursors place = r.cursors place :=
  Function.update_of_ne (Nat.ne_of_lt h) _ _

theorem copy_cursors_size : r.copy.cursors r.size = (r.cursors r.kept).copy :=
  Function.update_self _ _ _

theorem readAt_cursors_of_ne {place place' : Nat} (h : place' ≠ place)
    (read : Cursor → α × Cursor) : (r.readAt place read).2.cursors place' = r.cursors place' :=
  Function.update_of_ne h _ _

theorem readCopy_cursors {place : Nat} (h : place < r.size) (read : Cursor → α × Cursor) :
    (r.copy.readAt r.size read).2.cursors place = r.cursors place := by
  rw [readAt_cursors_of_ne (Nat.ne_of_lt h), copy_cursors_of_lt h]

theorem readCopy_answer (read : Cursor → α × Cursor) :
    (r.copy.readAt r.size read).1 = (read (r.cursors r.kept).copy).1 := by
  rw [← copy_cursors_size]
  rfl

namespace Keeps

theorem ofCursor (c : Cursor) : Keeps (.ofCursor c) c.copy where
  cursor := rfl
  kept_lt := Nat.lt_succ_self 1
  given_lt place hplace := by
    rw [List.mem_singleton.1 hplace]
    exact Nat.zero_lt_two
  notMem := by simp [Readers.ofCursor]

theorem copy (h : Keeps r c) : Keeps r.copy c where
  cursor := (copy_cursors_of_lt h.kept_lt).trans h.cursor
  kept_lt := Nat.lt_succ_of_lt h.kept_lt
  given_lt place hplace := Nat.lt_succ_of_lt (h.given_lt place hplace)
  notMem := h.notMem

theorem readAt (h : Keeps r c) {place : Nat} (hplace : r.kept ≠ place)
    (read : Cursor → α × Cursor) : Keeps (r.readAt place read).2 c where
  cursor := (readAt_cursors_of_ne hplace read).trans h.cursor
  kept_lt := h.kept_lt
  given_lt := h.given_lt
  notMem := h.notMem

theorem readCopy (h : Keeps r c) (read : Cursor → α × Cursor) :
    Keeps (r.copy.readAt r.size read).2 c :=
  h.copy.readAt (Nat.ne_of_lt h.kept_lt) read

theorem take (h : Keeps r c) : Keeps r.take.2 c where
  cursor := h.copy.cursor
  kept_lt := h.copy.kept_lt
  given_lt place hplace := by
    rcases List.mem_append.1 hplace with hgiven | hnew
    · exact h.copy.given_lt place hgiven
    · rw [List.mem_singleton.1 hnew]
      exact Nat.lt_succ_self r.size
  notMem hmem := by
    rcases List.mem_append.1 hmem with hgiven | hnew
    · exact h.notMem hgiven
    · exact Nat.ne_of_lt h.kept_lt (List.mem_singleton.1 hnew)

theorem step (h : Keeps r c) (use : Use) : Keeps (r.step use) c := by
  cases use with
  | toRow => exact h.readCopy _
  | readRows => exact h.readCopy _
  | take => exact h.take
  | call reader call =>
    rw [Readers.step]
    split
    next place hplace =>
      have hne : r.kept ≠ place := by
        rintro rfl
        exact h.notMem (List.mem_of_getElem? hplace)
      exact h.readAt hne _
    next => exact h

theorem after (h : Keeps r c) (uses : List Use) : Keeps (r.after uses) c := by
  induction uses generalizing r with
  | nil => exact h
  | cons use rest ih => exact ih (h.step use)

end Keeps

end Reading

/-- Whatever has been done before, a value that was made of a cursor is read as its rows, and no
conversion of it to a row moves a cursor that a reader has. -/
theorem reads_value (made : Cursor) (mark : Nat) (uses : List Use) :
    let r := (Readers.ofCursor made).after uses
    r.toRow.1 = Convert.toRow (made.toValue mark) ∧
      r.readRows.1 = made.rows.map .ok ∧
      r.take.1 = (made.toValue mark).result ∧
      ∀ place ∈ r.given, r.toRow.2.cursors place = r.cursors place := by
  intro r
  have h : Keeps r made.copy := (Keeps.ofCursor made).after uses
  refine ⟨?_, ?_, ?_, fun place hplace => readCopy_cursors (h.given_lt place hplace) _⟩
  · rw [toRow, readCopy_answer, h.cursor]
    exact made.onlyRow_copy mark
  · rw [readRows, readCopy_answer, h.cursor]
    exact readRest_eq_drop _
  · rw [take, copy_cursors_size, h.cursor]
    rfl

end Readers

end Cursor

namespace Convert

theorem length_rowColumns (n : Nat) (items : List Value) :
    (rowColumns n items).length = items.length := by
  induction items generalizing n with
  | nil => rfl
  | cons v rest ih => exact congrArg (· + 1) (ih (n + 1))

open Cursor

def fieldsOf (v : Value) : List Value :=
  match v with
  | .row items => items
  | v => [v]

theorem row_fieldsOf {v : Value} (h : v.kind = .row) : .row (fieldsOf v) = v := by
  cases v with
  | row items => rfl
  | _ => cases h

theorem fieldsOf_of_ne {v : Value} (h : v.kind ≠ .row) : fieldsOf v = [v] := by
  cases v with
  | row items => exact absurd rfl h
  | _ => rfl

theorem toResultSet_eq (v : Value) (mark : Nat) :
    ∃ made : Cursor, toResultSet v mark = made.toValue mark ∧ made.rows = [fieldsOf v] ∧
      made.columns.length = (fieldsOf v).length := by
  cases v with
  | row items => exact ⟨.ofRows (rowColumns 1 items) [items], rfl, rfl, length_rowColumns 1 items⟩
  | _ => exact ⟨.ofRows [_] [[_]], rfl, rfl, rfl⟩

theorem toRow_of_many {mark : Nat} {columns : List Column} {rows : List (List Value)}
    (h : 1 < rows.length) : toRow (.resultSet mark columns rows) = fail .scalarCardinality := by
  rcases rows with _ | ⟨first, _ | ⟨second, rest⟩⟩
  · exact absurd h (Nat.not_lt_zero 1)
  · exact absurd h (Nat.lt_irrefl 1)
  · rfl

theorem convert_row_of_ne {v : Value} {c : ConvertContext} (hnull : v.isNull = false)
    (hset : v.kind ≠ .resultSet) (hc : c.extension = none) :
    convert v .row c = .ok (.row (fieldsOf v)) := by
  by_cases hrow : v.kind = .row
  · rw [row_fieldsOf hrow, ← hrow]
    exact convert_self hc
  · rw [convert_eq_byRule hnull hrow, fieldsOf_of_ne hrow]
    exact toRow_of_ne hset

theorem convert_row_of_cursor (made : Cursor) (mark : Nat) (c : ConvertContext) :
    convert (made.toValue mark) .row c = toRow (made.toValue mark) :=
  convert_eq_byRule rfl (fun hkind => by cases hkind) c

/-- On the way through a result a row stays as it is, and any other value becomes the row of its
own. A result becomes its only row, NULL if it has none, and none can be told of several. This is
what its cursor says too after whatever has been done with the value and its copies; the rows stay
all there, and no reader's cursor is moved. -/
theorem row_through_result :
    (∀ (v : Value) (c₁ c₂ c₃ : ConvertContext), v.isNull = false → v.kind ≠ .resultSet →
      c₃.extension = none →
      ∃ (made : Cursor) (fields : List Value), convert v .resultSet c₁ = .ok (made.toValue c₁.mark) ∧
        made.rows = [fields] ∧ made.columns.length = fields.length ∧
        convert (made.toValue c₁.mark) .row c₂ = convert v .row c₃ ∧
        convert v .row c₃ = .ok (.row fields) ∧
        (v.kind = .row → .row fields = v) ∧ (v.kind ≠ .row → fields = [v])) ∧
    ∀ (made : Cursor) (mark : Nat) (uses : List Use) (c : ConvertContext),
      let r := (Readers.ofCursor made).after uses
      let row := convert (made.toValue mark) .row c
      (made.rows = [] → row = .ok .null) ∧
        (∀ fields, made.rows = [fields] → row = .ok (.row fields)) ∧
        (1 < made.rows.length → row = fail .scalarCardinality) ∧
        r.toRow.1 = row ∧ r.readRows.1 = made.rows.map .ok ∧
        r.take.1 = (made.toValue mark).result ∧
        ∀ place ∈ r.given, r.toRow.2.cursors place = r.cursors place := by
  refine ⟨fun v c₁ c₂ c₃ hnull hset hc => ?_, fun made mark uses c => ?_⟩
  · obtain ⟨made, hmade, hrows, hwidth⟩ := toResultSet_eq v c₁.mark
    have hresult : convert v .resultSet c₁ = .ok (made.toValue c₁.mark) := by
      rw [convert_eq_byRule hnull hset, byRule, hmade]
    have hrow := convert_row_of_ne hnull hset hc
    have hback : convert (made.toValue c₁.mark) .row c₂ = .ok (.row (fieldsOf v)) := by
      rw [convert_row_of_cursor, toValue, hrows]
      rfl
    exact ⟨made, fieldsOf v, hresult, hrows, hwidth, hback.trans hrow.symm, hrow, row_fieldsOf,
      fieldsOf_of_ne⟩
  · simp only [convert_row_of_cursor]
    refine ⟨fun hrows => ?_, fun fields hrows => ?_, toRow_of_many,
      Readers.reads_value made mark uses⟩
    · rw [toValue, hrows]
      rfl
    · rw [toValue, hrows]
      rfl

/-- A row of no fields is a row, before and after its owner and its readers have used the result. -/
theorem row_through_result_of_empty_row :
    let c := ConvertContext.ofSession (.system 0 0)
    let r := (Readers.ofCursor (.ofRows [] [[]])).after
      [.toRow, .take, .call 1 .next, .call 0 (.addRow []), .readRows]
    (Value.row []).isNull = false ∧ (Value.row []).kind ≠ .resultSet ∧ c.extension = none ∧
      convert (.row []) .row c = .ok (.row []) ∧ r.toRow.1 = .ok (.row []) ∧
      r.readRows.1 = [.ok []] := by
  intro c r
  have hset : (Value.row []).kind ≠ .resultSet := by
    intro hkind
    cases hkind
  obtain ⟨hvalue, hresult⟩ := row_through_result
  obtain ⟨-, fields, -, -, -, -, hrow, hsame, -⟩ := hvalue (.row []) c c c rfl hset rfl
  obtain ⟨-, hone, -, hread, hrows, -⟩ := hresult (.ofRows [] [[]]) 0
    [.toRow, .take, .call 1 .next, .call 0 (.addRow []), .readRows] c
  exact ⟨rfl, hset, rfl, hsame rfl ▸ hrow, hread.trans (hone [] rfl), hrows⟩

end Convert

end Datum
