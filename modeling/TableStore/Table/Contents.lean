import TableStore.Schema
import TableStore.Sql.Condition

/-! What a table holds, and what statements make of it. Nothing here touches a
file: a selection is an answer, a change is a new list of rows. -/
namespace TableStore

open TableStore.Sql

abbrev Row := List String

structure Answer where
  columns : List String := []
  rows : List Row := []
  affected : Nat := 0
  message : Option String := none
deriving DecidableEq

/-- Puts values at positions of a row; the last value for a position stays. -/
def Row.assign (row : Row) (values : List (Nat × String)) : Row :=
  values.foldl (fun r p => r.set p.1 p.2) row

def Row.project (row : Row) (indices : List Nat) : Row :=
  indices.map fun i => row.getD i ""

/-- Orders rows by the text of the first column named `column`, keeping the order
of rows with equal text. -/
def orderRows (header : List String) (rows : List Row) (column : String) :
    Except Fault (List Row) :=
  if rows.isEmpty then .error .nothingToOrder
  else
    match header.idxOf? column with
    | none => .error (.columnNotFound column)
    | some i => .ok (rows.mergeSort fun a b => decide (a.getD i "" ≤ b.getD i ""))

namespace Schema

/-- The positions that projected columns stand for: a star for all of them, a
name for its first. -/
def resolve (s : Schema) (columns : List String) : Except Fault (List Nat) := do
  let groups ← columns.mapM fun c =>
    if c = "*" then .ok (List.range s.width) else (s.index c).map ([·])
  return groups.flatten

def checkAt (s : Schema) (i : Nat) (value : String) : Except Fault Unit :=
  match s.columns[i]? with
  | some c => c.check value
  | none => .ok ()

def resolveAssignments (s : Schema) (assignments : List (String × String)) :
    Except Fault (List (Nat × String)) :=
  assignments.mapM fun (column, value) => do
    let i ← s.index column
    s.checkAt i value
    return (i, value)

/-- The row that lists `values` for the columns at `indices` and leaves the other
fields empty. -/
def newRow (s : Schema) (indices : List Nat) (values : List String) : Except Fault Row :=
  if values.length = indices.length then do
    let row := Row.assign (List.replicate s.width "") (indices.zip values)
    s.checkRow row
    return row
  else .error (.valueCount indices.length values.length)

/-- The rows that an insertion with these columns adds. Every row is checked
before there is one to add. -/
def newRows (s : Schema) (columns : List String) (groups : List (List String)) :
    Except Fault (List Row) := do
  let indices ← columns.mapM s.index
  groups.mapM (s.newRow indices)

end Schema

structure Contents where
  schema : Schema
  rows : List Row
deriving DecidableEq

namespace Contents

def selects (c : Contents) (condition : Option Condition) (row : Row) : Bool :=
  condition.all fun p => p.holds c.schema.names row

def select (c : Contents) (columns : List String) (condition : Option Condition)
    (order : Option String) : Except Fault Answer := do
  let indices ← c.schema.resolve columns
  let header := Row.project c.schema.names indices
  let rows := (c.rows.filter (c.selects condition)).map fun row => Row.project row indices
  match order with
  | none => return { columns := header, rows }
  | some column => return { columns := header, rows := ← orderRows header rows column }

def update (c : Contents) (assignments : List (String × String)) (condition : Option Condition) :
    Except Fault (Nat × Contents) := do
  let values ← c.schema.resolveAssignments assignments
  let rows := c.rows.map fun row => if c.selects condition row then Row.assign row values else row
  return (c.rows.countP (c.selects condition), { c with rows })

def delete (c : Contents) (condition : Option Condition) : Nat × Contents :=
  (c.rows.countP (c.selects condition),
    { c with rows := c.rows.filter fun row => !c.selects condition row })

end Contents

end TableStore
