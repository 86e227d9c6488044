import Datum.Proofs.Cursor

/-!
# The width of rows

A row is taken only if it has a value for each column that there is by then. A column that is added
afterwards leaves it as it is. So no row is wider than the result, and whoever reads a row through
the cursor or a copy finds a column for each of its values; but every row has a value for each
column just if no column has been added once there were rows.
-/

set_option autoImplicit false

namespace Datum.Cursor

def after (c : Cursor) (calls : List Call) : Cursor := calls.foldl step c

def Fits (c : Cursor) : Prop := ∀ fields ∈ c.rows, fields.length ≤ c.columns.length

def Aligned (c : Cursor) : Prop := ∀ fields ∈ c.rows, fields.length = c.columns.length

def Call.addsColumn : Call → Bool
  | .addColumn _ => true
  | _ => false

def ColumnsFirst (c : Cursor) : List Call → Prop
  | [] => True
  | call :: rest => (call.addsColumn = true → c.rows = []) ∧ ColumnsFirst (c.step call) rest

variable {c : Cursor}

theorem step_addRow (c : Cursor) (fields : List Value) : c.step (.addRow fields) =
    if fields.length = c.columns.length then { c with rows := c.rows ++ [fields] } else c := by
  by_cases hwidth : fields.length = c.columns.length
  · simp only [step, addRow, if_pos hwidth]
  · simp only [step, addRow, if_neg hwidth]

theorem Fits.step (h : c.Fits) (call : Call) : (c.step call).Fits := by
  cases call with
  | addColumn column =>
    intro fields hfields
    have hle := h fields hfields
    simp only [Cursor.step, addColumn, List.length_append]
    omega
  | addRow new =>
    rw [step_addRow]
    split
    next hwidth =>
      intro fields hfields
      rcases List.mem_append.1 hfields with hold | hnew
      · exact h fields hold
      · rw [List.mem_singleton.1 hnew]
        exact Nat.le_of_eq hwidth
    next => exact h
  | hasNext | next | reset | currentRow => exact h

theorem aligned_addColumn (h : c.Fits) (column : Column) :
    (c.addColumn column).Aligned ↔ c.rows = [] := by
  constructor
  · intro haligned
    by_contra hrows
    -- A row was no wider than the result before, and only the result has become wider.
    obtain ⟨fields, hfields⟩ := List.exists_mem_of_ne_nil _ hrows
    have hle := h fields hfields
    have heq := haligned fields hfields
    simp only [addColumn, List.length_append, List.length_singleton] at heq
    omega
  · intro hrows fields hfields
    simp [addColumn, hrows] at hfields

theorem aligned_addRow (c : Cursor) (new : List Value) :
    (c.step (.addRow new)).Aligned ↔ c.Aligned := by
  rw [step_addRow]
  split
  next hwidth => simp [Aligned, or_imp, forall_and, hwidth]
  next => rfl

theorem aligned_step (h : c.Fits) (call : Call) :
    (c.step call).Aligned ↔ c.Aligned ∧ (call.addsColumn = true → c.rows = []) := by
  cases call with
  | addColumn column =>
    refine (aligned_addColumn h column).trans ⟨fun hrows => ⟨?_, fun _ => hrows⟩, fun h => h.2 rfl⟩
    intro fields hfields
    simp [hrows] at hfields
  | addRow new => simp [aligned_addRow, Call.addsColumn]
  | hasNext | next | reset | currentRow => exact (and_iff_left nofun).symm

theorem Fits.after (h : c.Fits) (calls : List Call) : (c.after calls).Fits := by
  induction calls generalizing c with
  | nil => exact h
  | cons call rest ih => exact ih (h.step call)

theorem aligned_after (h : c.Fits) (calls : List Call) :
    (c.after calls).Aligned ↔ c.Aligned ∧ c.ColumnsFirst calls := by
  -- Both directions at once: a row that is too short stays so, since no call widens it.
  induction calls generalizing c with
  | nil => simp [after, ColumnsFirst]
  | cons call rest ih =>
    rw [after, List.foldl_cons, ← after, ih (h.step call), aligned_step h, ColumnsFirst, and_assoc]

theorem fits_empty : empty.Fits := nofun

theorem aligned_empty : empty.Aligned := nofun

theorem mem_of_currentRow {fields : List Value} (h : c.currentRow = .ok fields) :
    fields ∈ c.rows := by
  obtain ⟨n, -, hrow⟩ := currentRow_eq_ok.1 h
  exact List.mem_of_getElem? hrow

theorem column_natCast {i : Nat} {found : Column} (h : c.columns[i]? = some found) :
    c.column (.int i) = .ok found := by
  have hindex : (Num.int i).toInt? = some (.ofNat i) := rfl
  simp only [column, hindex, h]

theorem Fits.exists_column (h : c.Fits) {fields : List Value} (hread : c.currentRow = .ok fields)
    {i : Nat} (hi : i < fields.length) : ∃ found, c.columns[i]? = some found ∧
      c.columnName (.int i) = .ok found.name ∧ c.columnType (.int i) = .ok found.type := by
  have hwidth := h fields (mem_of_currentRow hread)
  have hcolumn := List.getElem?_eq_getElem (Nat.lt_of_lt_of_le hi hwidth)
  refine ⟨_, hcolumn, ?_, ?_⟩
  · rw [columnName, column_natCast hcolumn]
    rfl
  · rw [columnType, column_natCast hcolumn]
    rfl

/-- A result that is built up from the empty one by any calls has no row that is wider than it is,
and every row has a value for each column just if no column has been added once there were rows. In
any case a row that is read through a copy, whatever has been done with the copy meanwhile, has a
column with a name and a type for each of its values. -/
theorem row_widths (calls later : List Call) :
    let c := empty.after calls
    let d := c.copy.after later
    c.Fits ∧ (c.Aligned ↔ empty.ColumnsFirst calls) ∧
      ∀ fields, d.currentRow = .ok fields → ∀ i < fields.length, ∃ found,
        d.columns[i]? = some found ∧ d.columnName (.int i) = .ok found.name ∧
          d.columnType (.int i) = .ok found.type := by
  intro c d
  have hfits : c.Fits := fits_empty.after calls
  have hcopy : d.Fits := Fits.after (c := c.copy) hfits later
  refine ⟨hfits, ?_, fun fields hread i hi => hcopy.exists_column hread hi⟩
  exact (aligned_after fits_empty calls).trans (and_iff_right aligned_empty)

theorem row_widths_of_columns_first :
    let calls : List Call := [.addColumn ⟨"X", .ofKind .boolean⟩, .addColumn ⟨"Y", .ofKind .date⟩,
      .addRow [.boolean true], .addRow [.boolean true, .null]]
    let c := empty.after calls
    let d := c.copy.after [.next, .addColumn ⟨"Z", .ofKind .boolean⟩]
    empty.ColumnsFirst calls ∧ c.rows.length = 1 ∧ c.Aligned ∧
      d.currentRow = .ok [.boolean true, .null] ∧ d.columnName (.int 1) = .ok "Y" ∧
      d.columnType (.int 1) = .ok (.ofKind .date) := by
  intro calls c d
  have hfirst : empty.ColumnsFirst calls := by
    refine ⟨fun _ => rfl, fun _ => rfl, nofun, nofun, trivial⟩
  have hread : d.currentRow = .ok [.boolean true, .null] := rfl
  obtain ⟨-, haligned, hcolumns⟩ :=
    row_widths calls [.next, .addColumn ⟨"Z", .ofKind .boolean⟩]
  obtain ⟨found, hfound, hname, htype⟩ := hcolumns _ hread 1 (by decide)
  obtain rfl : ⟨"Y", .ofKind .date⟩ = found := Option.some.inj hfound
  exact ⟨hfirst, rfl, haligned.2 hfirst, hread, hname, htype⟩

/-- A column that comes after a row leaves the row one value short, also where a copy reads it. -/
theorem row_short_of_late_column :
    let c := empty.after [.addColumn ⟨"X", .ofKind .boolean⟩, .addRow [.boolean true],
      .addColumn ⟨"Y", .ofKind .boolean⟩]
    ¬c.Aligned ∧ c.rows = [[.boolean true]] ∧ c.columns.length = 2 ∧
      (c.copy.after [.next]).currentRow = .ok [.boolean true] := by
  intro c
  refine ⟨fun haligned => ?_, rfl, rfl, rfl⟩
  have hwidth : [Value.boolean true].length = c.columns.length :=
    haligned [.boolean true] (List.mem_singleton_self _)
  exact absurd hwidth (by decide)

end Datum.Cursor
