import TableStore.Fault
import TableStore.Text.Numeral
import TableStore.Text.Separated

/-! Columns and the schemas they make up. Values are text; a column type only says
which texts a column accepts. -/
namespace TableStore

open TableStore.Text

inductive ColumnType where
  | int64
  | text
deriving DecidableEq

namespace ColumnType

def name : ColumnType → String
  | int64 => "int64"
  | text => "string"

def ofName (s : String) : Except Fault ColumnType :=
  if s = int64.name then .ok int64
  else if s = text.name then .ok text
  else .error (.unknownType s)

def accepts (type : ColumnType) (value : String) : Bool :=
  match type with
  | int64 => isInt64 value
  | text => true

def check (type : ColumnType) (column value : String) : Except Fault Unit :=
  if type.accepts value then .ok () else .error (.typeMismatch column type.name value)

theorem ofName_name (t : ColumnType) : ofName t.name = .ok t := by
  cases t <;> rfl

end ColumnType

def fieldSeparator : Char := ','

def isStorable (value : String) : Bool :=
  value.toList.all fun c => c != fieldSeparator && c != '\n' && c != '\r'

def isColumnName (name : String) : Bool :=
  !name.isEmpty && isStorable name

def fieldLine (fields : List String) : List Char :=
  joinWith fieldSeparator (fields.map String.toList)

def lineFields (line : List Char) : List String :=
  (splitAt fieldSeparator line).map String.ofList

structure Column where
  name : String
  type : ColumnType
deriving DecidableEq

/-- Refuses a value of the wrong type, then one that is no single field. -/
def Column.check (c : Column) (value : String) : Except Fault Unit := do
  c.type.check c.name value
  if isStorable value then return () else .error (.separatorInValue c.name value)

/-- The columns of a table, in order; the names need not differ. -/
structure Schema where
  columns : List Column
  named : ∀ c ∈ columns, isColumnName c.name = true
deriving DecidableEq

namespace Schema

def names (s : Schema) : List String :=
  s.columns.map Column.name

def types (s : Schema) : List ColumnType :=
  s.columns.map Column.type

def width (s : Schema) : Nat :=
  s.columns.length

def ofColumns (columns : List Column) : Except Fault Schema :=
  match h : columns.find? fun c => !isColumnName c.name with
  | some c => .error (.separatorInValue c.name c.name)
  | none => .ok ⟨columns, fun c hc => by simpa using List.find?_eq_none.mp h c hc⟩

def ofTypes (names : List String) (types : List ColumnType) : Except Fault Schema :=
  if names.length = types.length then ofColumns (List.zipWith Column.mk names types)
  else .error (.typeCount names.length types.length)

/-- The schema that a declaration of names and type names describes. Their number
is compared before any type name is looked at. -/
def declare (names typeNames : List String) : Except Fault Schema := do
  if names.length ≠ typeNames.length then
    .error (.typeCount names.length typeNames.length)
  else
    let types ← typeNames.mapM ColumnType.ofName
    ofTypes names types

def ofLines (header types : List Char) : Except Fault Schema :=
  declare (lineFields header) (lineFields types)

def headerLine (s : Schema) : List Char :=
  fieldLine s.names

def typesLine (s : Schema) : List Char :=
  fieldLine (s.types.map ColumnType.name)

/-- The position of the first column with a name. -/
def index? (s : Schema) (name : String) : Option Nat :=
  s.names.idxOf? name

def index (s : Schema) (name : String) : Except Fault Nat :=
  match s.index? name with
  | some i => .ok i
  | none => .error (.columnNotFound name)

/-- Refuses a row with the wrong number of fields, then the first field that its
column refuses. -/
def checkRow (s : Schema) (row : List String) : Except Fault Unit :=
  if row.length = s.width then
    (s.columns.zip row).forM fun (c, value) => c.check value
  else .error (.valueCount s.width row.length)

@[simp] theorem length_names (s : Schema) : s.names.length = s.width := by
  simp [names, width]

@[simp] theorem length_types (s : Schema) : s.types.length = s.width := by
  simp [types, width]

end Schema

end TableStore
