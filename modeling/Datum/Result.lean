import Datum.Value.Describe

/-!
# Results

A cursor over the rows of a result. It moves forward, can be rewound and copied, and rows and
columns can be added at any time.
-/

set_option autoImplicit false

namespace Datum

/-- Columns, rows, and how many rows the cursor has moved to; one more than there are rows once it
has moved past the end. -/
structure Cursor where
  columns : List Column
  rows : List (List Value)
  passed : Nat

namespace Cursor

def empty : Cursor := ⟨[], [], 0⟩

instance : Inhabited Cursor := ⟨empty⟩

def ofRows (columns : List Column) (rows : List (List Value)) : Cursor := ⟨columns, rows, 0⟩

def addColumn (c : Cursor) (column : Column) : Cursor :=
  { c with columns := c.columns ++ [column] }

def addRow (c : Cursor) (fields : List Value) : Outcome Cursor :=
  if fields.length = c.columns.length then .ok { c with rows := c.rows ++ [fields] }
  else .error (.rowWidth fields.length c.columns.length)

def hasNext (c : Cursor) : Bool := c.passed < c.rows.length

def next (c : Cursor) : Bool × Cursor :=
  let passed := if c.passed ≤ c.rows.length then c.passed + 1 else c.passed
  (passed ≤ c.rows.length, { c with passed := passed })

def currentRow (c : Cursor) : Outcome (List Value) :=
  match c.passed with
  | 0 => .error .noCurrentRow
  | n + 1 =>
    match c.rows[n]? with
    | some fields => .ok fields
    | none => .error .noCurrentRow

def reset (c : Cursor) : Cursor := { c with passed := 0 }

def copy (c : Cursor) : Cursor := c.reset

def column (c : Cursor) (index : Num) : Outcome Column :=
  match index.toInt? with
  | some (.ofNat n) =>
    match c.columns[n]? with
    | some column => .ok column
    | none => .error (.columnOutOfRange index)
  | _ => .error (.columnOutOfRange index)

def columnName (c : Cursor) (index : Num) : Outcome Text := do return (← c.column index).name

def columnType (c : Cursor) (index : Num) : Outcome TypeInfo := do return (← c.column index).type

def toValue (c : Cursor) (mark : Nat) : Value := .resultSet mark c.columns c.rows

end Cursor

/-- The result that a value stands for: a result set itself, or one row with one column `X`. -/
def Value.result (v : Value) : Cursor :=
  match v with
  | .resultSet _ columns rows => .ofRows columns rows
  | v => .ofRows [⟨"X", v.type⟩] [[v]]

end Datum
