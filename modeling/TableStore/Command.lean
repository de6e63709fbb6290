import TableStore.Sql.Grammar
import TableStore.Table

/-! Commands: statements in the shape in which they run. -/
namespace TableStore

open TableStore.Sql

inductive Command where
  | create (table : String) (columns types : List String)
  | insert (table : String) (columns : List String) (groups : List (List String))
  | select (table : String) (columns : List String) (condition : Option Condition)
      (order : Option String)
  | update (table : String) (assignments : List (String × String)) (condition : Option Condition)
  | delete (table : String) (condition : Option Condition)
deriving DecidableEq

namespace Command

def ofStatement (s : Statement) : Command :=
  match s.verb with
  | .create => create s.table s.columns (s.groups.headD [])
  | .insert => insert s.table s.columns s.groups
  | .select => select s.table s.columns s.condition s.order
  | .update => update s.table (s.columns.zip (s.groups.headD [])) s.condition
  | .delete => delete s.table s.condition

def read (text : String) : Except Fault Command :=
  (Statement.read text).map ofStatement

def verb : Command → Verb
  | create .. => .create
  | insert .. => .insert
  | select .. => .select
  | update .. => .update
  | delete .. => .delete

def table : Command → String
  | create table .. => table
  | insert table .. => table
  | select table .. => table
  | update table .. => table
  | delete table .. => table

def isReadOnly (c : Command) : Bool :=
  c.verb.isReadOnly

def summary (c : Command) : String :=
  c.verb.keyword ++ " " ++ c.table

def counted (count : Nat) (what : String) : Answer :=
  { affected := count, message := some (toString count ++ " row(s) " ++ what) }

/-- A change of rows as a step of the root: a failed change leaves the root alone. -/
def changed (root : Root) (what : String) (r : Except Fault (Nat × Root)) :
    Except Fault Answer × Root :=
  match r with
  | .ok (count, root) => (.ok (counted count what), root)
  | .error fault => (.error fault, root)

def insertInto (root : Root) (table : String) (columns : List String)
    (groups : List (List String)) : Except Fault (Nat × Root) := do
  let t ← Table.find root table
  let rows ← (← t.schema root).newRows columns groups
  t.insert root rows

def run (root : Root) : Command → Except Fault Answer × Root
  | create table columns types =>
    match Schema.declare columns types with
    | .error fault => (.error fault, root)
    | .ok schema =>
      match Table.create root table schema with
      | (.error fault, root) => (.error fault, root)
      | (.ok _, root) => (.ok { message := some ("Table '" ++ table ++ "' created") }, root)
  | insert table columns groups => changed root "inserted" (insertInto root table columns groups)
  | select table columns condition order =>
    ((Table.find root table).bind fun t => t.select root columns condition order, root)
  | update table assignments condition =>
    changed root "updated" ((Table.find root table).bind fun t =>
      t.update root assignments condition)
  | delete table condition =>
    changed root "deleted" ((Table.find root table).bind fun t => t.delete root condition)

end Command

end TableStore
