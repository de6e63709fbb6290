import TableStore.Root
import TableStore.Table.File

/-! Tables in a root. Reading leaves the root alone; each change replaces the whole
file, or fails and leaves the root as it was. -/
namespace TableStore

open TableStore.Text TableStore.Sql

structure Table where
  name : String
deriving DecidableEq

namespace Table

def path (t : Table) (root : Root) : String :=
  joinPath root.path (tableFile t.name)

def find (root : Root) (name : String) : Except Fault Table := do
  let _ ← root.tablePath name
  if root.isFile (tableFile name) then return ⟨name⟩ else .error (.tableNotFound name)

def bytes (t : Table) (root : Root) : Except Fault ByteArray :=
  match root.readFile (tableFile t.name) with
  | .ok content => .ok content
  | .error .missing => .error (.tableNotFound t.name)
  | .error fault => .error (.disk fault)

def schema (t : Table) (root : Root) : Except Fault Schema := do
  Contents.decodeSchema (t.path root) (← t.bytes root)

def contents (t : Table) (root : Root) : Except Fault Contents := do
  Contents.decode (t.path root) (← t.bytes root)

def replace (t : Table) (root : Root) (c : Contents) : Except Fault Root := do
  c.check
  match root.writeFile (tableFile t.name) c.encode with
  | .ok root => return root
  | .error fault => .error (.disk fault)

/-- Makes a table without rows, and the directory of the root before it. -/
def create (root : Root) (name : String) (schema : Schema) : Except Fault Table × Root :=
  match root.tablePath name with
  | .error fault => (.error fault, root)
  | .ok _ =>
    match root.ensure with
    | .error fault => (.error (.disk fault), root)
    | .ok root =>
      if (root.entry? (tableFile name)).isSome then (.error (.tableExists name), root)
      else
        match (Table.mk name).replace root ⟨schema, []⟩ with
        | .error fault => (.error fault, root)
        | .ok root => (.ok ⟨name⟩, root)

def insert (t : Table) (root : Root) (rows : List Row) : Except Fault (Nat × Root) := do
  let c ← t.contents root
  let root ← t.replace root { c with rows := c.rows ++ rows }
  return (rows.length, root)

def select (t : Table) (root : Root) (columns : List String) (condition : Option Condition)
    (order : Option String) : Except Fault Answer := do
  (← t.contents root).select columns condition order

def update (t : Table) (root : Root) (assignments : List (String × String))
    (condition : Option Condition) : Except Fault (Nat × Root) := do
  let (count, c) ← (← t.contents root).update assignments condition
  return (count, ← t.replace root c)

def delete (t : Table) (root : Root) (condition : Option Condition) :
    Except Fault (Nat × Root) := do
  let (count, c) := (← t.contents root).delete condition
  return (count, ← t.replace root c)

end Table

end TableStore
