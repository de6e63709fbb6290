import TableStore.Sql.Condition

/-! Statements as they are written. Every kind has the same flat shape:

* `create`: the declared columns, and one group that holds their types;
* `insert`: the listed columns, and one group for each row;
* `select`: the projected columns;
* `update`: the assigned columns, and one group that holds their values;
* `delete`: neither columns nor groups. -/
namespace TableStore.Sql

inductive Verb where
  | create
  | insert
  | select
  | update
  | delete
deriving DecidableEq

namespace Verb

def keyword : Verb → String
  | create => "CREATE"
  | insert => "INSERT"
  | select => "SELECT"
  | update => "UPDATE"
  | delete => "DELETE"

/-- The verb a word spells, whatever the case of its ASCII letters. -/
def ofWord? (word : String) : Option Verb :=
  [create, insert, select, update, delete].find? fun v =>
    v.keyword.toList == word.toList.map Char.toUpper

def isReadOnly (v : Verb) : Bool :=
  v == select

theorem ofWord?_keyword (v : Verb) : ofWord? v.keyword = some v := by
  cases v <;> decide

end Verb

structure Statement where
  verb : Verb
  table : String
  columns : List String := []
  groups : List (List String) := []
  condition : Option Condition := none
  order : Option String := none
deriving DecidableEq

/-- Whether a text can be a table's name: ASCII letters, digits and underscores,
at least one. -/
def isTableName (name : String) : Bool :=
  !name.isEmpty && name.toList.all fun c => c.isAlphanum || c == '_'

end TableStore.Sql
