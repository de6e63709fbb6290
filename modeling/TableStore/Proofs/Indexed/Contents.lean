import TableStore.Proofs.Indexed.Schema
import TableStore.Proofs.Table.Codec

/-! Tables by position. The rows that a file gives are as wide as its schema, and those that are
ordered are as wide as what they are projected to; so whatever the file holds, every column that
is found has its field in every row. -/
namespace TableStore

open TableStore.Text TableStore.Sql

namespace Indexed

variable {c : Contents} {row : Row} {rows : List Row} {indices : List Nat}

def decodeSchema (path : String) (bytes : ByteArray) : Indexed Schema := do
  match byteLines bytes.data.toList with
  | header :: types :: _ =>
    let header ← of (decodeText ⟨header.toArray⟩)
    let types ← of (decodeText ⟨types.toArray⟩)
    declare (lineFields header) (lineFields types)
  | [header] =>
    let _ ← of (decodeText ⟨header.toArray⟩)
    throw (missingLine path)
  | [] => throw (missingLine path)

def decode (path : String) (bytes : ByteArray) : Indexed Contents := do
  let text ← of (decodeText bytes)
  match lines text with
  | header :: types :: rest =>
    let schema ← declare (lineFields header) (lineFields types)
    let rows ← of (Contents.decodeRows path schema.width 1 rest)
    return ⟨schema, rows⟩
  | _ => throw (missingLine path)

def project (row : Row) (indices : List Nat) : Indexed Row :=
  indices.mapM (get row)

/-- Orders rows by the field that comparing two of them looks up in both. -/
def orderRows (header : List String) (rows : List Row) (column : String) :
    Indexed (List Row) := do
  if rows.isEmpty then throw .nothingToOrder
  else
    match header.idxOf? column with
    | none => throw (.columnNotFound column)
    | some i =>
      let keyed ← rows.mapM fun row => do
        let key ← get row i
        return (key, row)
      return (keyed.mergeSort fun a b => decide (a.1 ≤ b.1)).map Prod.snd

def select (c : Contents) (columns : List String) (condition : Option Condition)
    (order : Option String) : Indexed Answer := do
  let indices ← of (c.schema.resolve columns)
  let header ← project c.schema.names indices
  let rows ← (c.rows.filter (c.selects condition)).mapM fun row => project row indices
  match order with
  | none => return { columns := header, rows }
  | some column =>
    let rows ← orderRows header rows column
    return { columns := header, rows }

def update (c : Contents) (assignments : List (String × String)) (condition : Option Condition) :
    Indexed (Nat × Contents) := do
  let values ← resolveAssignments c.schema assignments
  let rows ← c.rows.mapM fun row => do
    if c.selects condition row then assign row values else return row
  return (c.rows.countP (c.selects condition), { c with rows })

/-- Removes the selected rows; as many as are missing then have been removed. -/
def delete (c : Contents) (condition : Option Condition) : Indexed (Nat × Contents) := do
  let rows := c.rows.filter fun row => !c.selects condition row
  let count ← minus c.rows.length rows.length
  return (count, { c with rows })

theorem decodeSchema_eq (path : String) (bytes : ByteArray) :
    decodeSchema path bytes = of (Contents.decodeSchema path bytes) := by
  unfold decodeSchema Contents.decodeSchema
  generalize byteLines bytes.data.toList = ls
  match ls with
  | header :: types :: _ =>
    exact bind_eq rfl fun header _ => bind_eq rfl fun types _ => declare_eq _ _
  | [header] => exact bind_eq rfl fun _ _ => rfl
  | [] => rfl

theorem decode_eq (path : String) (bytes : ByteArray) :
    decode path bytes = of (Contents.decode path bytes) := by
  refine bind_eq rfl fun text _ => ?_
  generalize lines text = ls
  match ls with
  | header :: types :: rest =>
    exact bind_eq (declare_eq _ _) fun schema _ => bind_eq rfl fun rows _ => rfl
  | [_] => rfl
  | [] => rfl

theorem project_eq (h : ∀ i ∈ indices, i < row.length) :
    project row indices = of (.ok (row.project indices)) := by
  refine mapM_ok fun i hi => get_eq ?_
  simp [h i hi]

/-- A row that is too short has no outcome. -/
example : project ["1"] [0, 1] = ExceptT.mk none := rfl

/-- Sorting rows with their keys sorts them by their keys. -/
theorem mergeSort_keyed (key : Row → String) (rows : List Row) :
    ((rows.map fun row => (key row, row)).mergeSort fun a b => decide (a.1 ≤ b.1)).map Prod.snd =
      rows.mergeSort fun a b => decide (key a ≤ key b) := by
  have keyed : ∀ a ∈ rows, ∀ b ∈ rows, decide (key a ≤ key b) =
      (fun a b : String × Row => decide (a.1 ≤ b.1)) (key a, a) (key b, b) :=
    fun _ _ _ _ => rfl
  rw [← List.map_mergeSort keyed, List.map_map]
  exact List.map_id _

theorem orderRows_eq {header : List String} (h : ∀ row ∈ rows, row.length = header.length)
    (column : String) :
    orderRows header rows column = of (TableStore.orderRows header rows column) := by
  unfold orderRows TableStore.orderRows
  split
  · rfl
  · cases hi : header.idxOf? column with
    | none => rfl
    | some i =>
      have hlt : i < header.length := (List.idxOf?_eq_some_iff.mp hi).1
      have keyed : ∀ row ∈ rows, (do let key ← get row i; return (key, row)) =
          of (.ok (row.getD i "", row)) := by
        intro row hrow
        have hrow : i < row.length := h row hrow ▸ hlt
        rw [get_eq (List.getElem?_eq_getElem hrow), ok_bind]
        simp [hrow]
      dsimp only
      rw [mapM_ok keyed, ok_bind, mergeSort_keyed]
      rfl

theorem select_eq (h : ∀ row ∈ c.rows, row.length = c.schema.width) (columns : List String)
    (condition : Option Condition) (order : Option String) :
    select c columns condition order = of (c.select columns condition order) := by
  refine bind_eq rfl fun indices hindices => ?_
  have hwidth := Schema.lt_of_resolve hindices
  have hheader : ∀ i ∈ indices, i < c.schema.names.length := by simpa using hwidth
  have projected : ∀ row ∈ c.rows.filter (c.selects condition),
      project row indices = of (.ok (row.project indices)) := by
    intro row hrow
    refine project_eq fun i hi => ?_
    rw [h row (List.mem_of_mem_filter hrow)]
    exact hwidth i hi
  rw [project_eq hheader, ok_bind, mapM_ok projected, ok_bind]
  cases order with
  | none => rfl
  | some column =>
    refine bind_eq (orderRows_eq ?_ column) fun rows _ => rfl
    intro projection hprojection
    obtain ⟨row, -, rfl⟩ := List.mem_map.mp hprojection
    simp [Row.project]

theorem update_eq (h : ∀ row ∈ c.rows, row.length = c.schema.width)
    (assignments : List (String × String)) (condition : Option Condition) :
    update c assignments condition = of (c.update assignments condition) := by
  refine bind_eq (resolveAssignments_eq _ _) fun values hvalues => ?_
  have assigned : ∀ row ∈ c.rows,
      (if c.selects condition row then assign row values else return row) =
        of (.ok (if c.selects condition row then row.assign values else row)) := by
    intro row hrow
    split
    · refine assign_eq fun p hp => ?_
      rw [h row hrow]
      exact Schema.lt_of_resolveAssignments hvalues p hp
    · rfl
  rw [mapM_ok assigned]
  rfl

theorem delete_eq (c : Contents) (condition : Option Condition) :
    delete c condition = of (.ok (c.delete condition)) := by
  have parts := List.length_eq_length_filter_add (l := c.rows) (c.selects condition)
  have counted : c.rows.length - (c.rows.filter fun row => !c.selects condition row).length =
      c.rows.countP (c.selects condition) := by
    rw [List.countP_eq_length_filter]
    omega
  unfold delete Contents.delete
  dsimp only
  rw [minus_eq (List.length_filter_le _ _), ok_bind, counted]
  rfl

end Indexed

end TableStore
