import TableStore.Proofs.Indexed.Outcome
import TableStore.Proofs.Table.Rows

/-! Schemas by position. There is a type for every name because their numbers are compared before
they are paired; a value is checked only at the position of a column. -/
namespace TableStore.Indexed

open TableStore.Text

variable {s : Schema} {row : Row} {i : Nat}

def columns (names : List String) (types : List ColumnType) : Indexed (List Column) :=
  (List.range names.length).mapM fun i => do
    let name ← get names i
    let type ← get types i
    return ⟨name, type⟩

def ofTypes (names : List String) (types : List ColumnType) : Indexed Schema := do
  if names.length = types.length then
    let columns ← columns names types
    of (Schema.ofColumns columns)
  else throw (.typeCount names.length types.length)

def declare (names typeNames : List String) : Indexed Schema := do
  if names.length ≠ typeNames.length then
    throw (.typeCount names.length typeNames.length)
  else
    let types ← of (typeNames.mapM ColumnType.ofName)
    ofTypes names types

def checkValue (s : Schema) (i : Nat) (value : String) : Indexed Unit := do
  let name ← get s.names i
  let type ← get s.types i
  of (type.check name value)
  if isStorable value then return () else throw (.separatorInValue name value)

def checkRow (s : Schema) (row : Row) : Indexed Unit :=
  if row.length = s.width then row.zipIdx.forM fun (value, i) => checkValue s i value
  else throw (.valueCount s.width row.length)

def assign (row : Row) (values : List (Nat × String)) : Indexed Row :=
  values.foldlM (fun row p => set row p.1 p.2) row

def newRow (s : Schema) (indices : List Nat) (values : List String) : Indexed Row := do
  if values.length = indices.length then
    let row ← assign (List.replicate s.width "") (indices.zip values)
    checkRow s row
    return row
  else throw (.valueCount indices.length values.length)

def newRows (s : Schema) (columns : List String) (groups : List (List String)) :
    Indexed (List Row) := do
  let indices ← of (columns.mapM s.index)
  groups.mapM (newRow s indices)

def resolveAssignments (s : Schema) (assignments : List (String × String)) :
    Indexed (List (Nat × String)) :=
  assignments.mapM fun (column, value) => do
    let i ← of (s.index column)
    checkValue s i value
    return (i, value)

theorem columns_eq {names : List String} {types : List ColumnType}
    (h : names.length = types.length) :
    columns names types = of (.ok (List.zipWith Column.mk names types)) := by
  have paired : ∀ i ∈ List.range names.length,
      (do let name ← get names i; let type ← get types i; return (⟨name, type⟩ : Column)) =
        of (.ok ⟨names.getD i "", types.getD i .text⟩) := by
    intro i hi
    have hi := List.mem_range.mp hi
    rw [get_eq (List.getElem?_eq_getElem hi), ok_bind,
      get_eq (List.getElem?_eq_getElem (h ▸ hi)), ok_bind]
    simp [hi, h ▸ hi]
  refine (mapM_ok paired).trans (congrArg (fun columns => of (.ok columns)) ?_)
  apply List.ext_getElem
  · simp [h]
  · intro i hi _
    have hi : i < names.length := by simpa using hi
    simp [hi, h ▸ hi]

theorem declare_eq (names typeNames : List String) :
    declare names typeNames = of (Schema.declare names typeNames) := by
  unfold declare Schema.declare
  split
  · rfl
  · refine bind_eq rfl fun types _ => ?_
    unfold ofTypes Schema.ofTypes
    split
    · next h =>
      rw [columns_eq h]
      rfl
    · rfl

theorem checkValue_eq {c : Column} (h : s.columns[i]? = some c) (value : String) :
    checkValue s i value = of (c.check value) := by
  have hname : s.names[i]? = some c.name := by simp [Schema.names, h]
  have htype : s.types[i]? = some c.type := by simp [Schema.types, h]
  unfold checkValue
  rw [get_eq hname, ok_bind, get_eq htype, ok_bind]
  refine bind_eq rfl fun _ _ => ?_
  split <;> rfl

theorem checkAt_eq (h : i < s.width) (value : String) :
    checkValue s i value = of (s.checkAt i value) := by
  have hcolumn := List.getElem?_eq_getElem (l := s.columns) h
  rw [checkValue_eq hcolumn, Schema.checkAt, hcolumn]

/-- The fields from position `before.length` on, checked one by one. -/
theorem forM_checkValue (before : List Column) {columns : List Column}
    (h : s.columns = before ++ columns) (hl : row.length = columns.length) :
    ((row.zipIdx before.length).forM fun (value, i) => checkValue s i value) =
      of ((columns.zip row).forM fun (c, value) => c.check value) := by
  induction columns generalizing before row with
  | nil =>
    rw [List.length_eq_zero_iff.mp hl]
    rfl
  | cons c columns ih =>
    obtain ⟨value, row, rfl⟩ := List.exists_cons_of_length_eq_add_one hl
    have hcolumn : s.columns[before.length]? = some c := by simp [h]
    have := ih (before ++ [c]) (by simp [h]) (Nat.succ.inj hl)
    rw [List.length_append] at this
    exact bind_eq (checkValue_eq hcolumn value) fun _ _ => this

theorem checkRow_eq (s : Schema) (row : Row) : checkRow s row = of (s.checkRow row) := by
  unfold checkRow Schema.checkRow
  split
  · next h => exact forM_checkValue [] (List.nil_append _).symm h
  · rfl

theorem assign_eq {values : List (Nat × String)} (h : ∀ p ∈ values, p.1 < row.length) :
    assign row values = of (.ok (row.assign values)) := by
  induction values generalizing row with
  | nil => rfl
  | cons p values ih =>
    rw [List.forall_mem_cons] at h
    have hrest : ∀ p' ∈ values, p'.1 < (row.set p.1 p.2).length := by simpa using h.2
    unfold assign
    rw [List.foldlM_cons, set_eq h.1, ok_bind]
    exact ih hrest

theorem newRow_eq {indices : List Nat} (h : ∀ i ∈ indices, i < s.width) (values : List String) :
    newRow s indices values = of (s.newRow indices values) := by
  unfold newRow Schema.newRow
  split
  · rw [assign_eq, ok_bind]
    · exact bind_eq (checkRow_eq _ _) fun _ _ => rfl
    · intro p hp
      rw [List.length_replicate]
      exact h p.1 (List.of_mem_zip hp).1
  · rfl

theorem newRows_eq (s : Schema) (columns : List String) (groups : List (List String)) :
    newRows s columns groups = of (s.newRows columns groups) := by
  refine bind_eq rfl fun indices hindices => mapM_eq fun values _ => newRow_eq ?_ values
  intro i hi
  obtain ⟨column, -, hcolumn⟩ := Outcome.exists_of_mem_mapM hindices hi
  exact Schema.index_lt hcolumn

theorem resolveAssignments_eq (s : Schema) (assignments : List (String × String)) :
    resolveAssignments s assignments = of (s.resolveAssignments assignments) := by
  refine mapM_eq fun p _ => bind_eq rfl fun i hi => ?_
  exact bind_eq (checkAt_eq (Schema.index_lt hi) _) fun _ _ => rfl

end TableStore.Indexed
