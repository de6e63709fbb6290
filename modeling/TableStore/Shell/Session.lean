import TableStore.Database
import TableStore.Shell.Grid

/-! The shell: statements and dot commands, line by line. Selections read the files
at once; other statements run at once or, while a transaction is open, are queued. -/
namespace TableStore.Shell

open TableStore.Text TableStore.Sql

inductive Output where
  | out (line : String)
  | err (line : String)
deriving DecidableEq

structure Session where
  db : Database
  held : Option Nat := none

def banner (db : Database) : List String :=
  ["flatdb - a flat-file relational store",
    "Storage root: " ++ db.root.path,
    "Type '.help' for help, '.quit' to exit"]

def help : List String :=
  ["",
    "Commands:",
    "  .help              Show this help message",
    "  .quit              Exit the shell",
    "  .tables            List all tables",
    "  .schema [table]    Show table schema",
    "  .begin             Start a transaction; statements are queued",
    "  .commit            Run the queued statements",
    "  .rollback          Discard the queued statements",
    "",
    "SQL Commands:",
    "  CREATE TABLE ...   Create a new table",
    "  INSERT INTO ...    Insert rows",
    "  SELECT ...         Query data",
    "  UPDATE ...         Update rows",
    "  DELETE FROM ...    Delete rows",
    "",
    "Examples:",
    "  CREATE TABLE users (id, name) WITH TYPES (int64, string)",
    "  INSERT INTO users (id, name) VALUES (1, 'Alice'), (2, 'Bob')",
    "  SELECT * FROM users WHERE id > 1 ORDER BY name",
    ""]

def failure (fault : Fault) : List Output :=
  [.err ("Error: " ++ fault.message)]

def label (id : Nat) : String :=
  "Transaction " ++ toString id

/-- The lines of an answer: its message, or its rows if it has columns. -/
def answerLines (answer : Answer) : List Output :=
  match answer.message with
  | some message => [.out message]
  | none => if answer.columns.isEmpty then [] else (Grid.draw answer.columns answer.rows).map .out

/-- Whether a line is sent to be read as a selection: its first piece says so. -/
def isSelection (line : List Char) : Bool :=
  match Verb.ofWord? (String.ofList (nextPiece line).1) with
  | some v => v.isReadOnly
  | none => false

namespace Session

def statement (s : Session) (line : List Char) : List Output × Session :=
  let text := String.ofList line
  if isSelection line then
    match s.db.query text with
    | .ok answer => (answerLines answer, s)
    | .error fault => (failure fault, s)
  else
    match s.held with
    | some id =>
      match s.db.exec id text with
      | .ok db => ([.out ("Queued in transaction " ++ toString id)], { s with db })
      | .error fault => (failure fault, s)
    | none =>
      match s.db.execute? text with
      | some (.ok answer, db) => (answerLines answer, { s with db })
      | some (.error fault, db) => (failure fault, { s with db })
      | none => ([], s)

def listTables (s : Session) : List Output :=
  match s.db.tables with
  | [] => [.out "No tables found."]
  | tables => .out "Tables:" :: tables.map fun t => .out ("  " ++ t)

def describe (s : Session) (table : String) : List Output :=
  match s.db.schema table with
  | .error fault => failure fault
  | .ok schema =>
    .out ("Table: " ++ table) :: schema.columns.map fun c =>
      .out ("  " ++ c.name ++ " " ++ c.type.name)

def describeAll (s : Session) (table : String) : List Output :=
  (if table.isEmpty then s.db.tables else [table]).flatMap s.describe

def begin (s : Session) : List Output × Session :=
  match s.held with
  | some id => ([.err (label id ++ " is already open")], s)
  | none =>
    match s.db.tryBegin with
    | .ok (id, db) => ([.out (label id ++ " started")], ⟨db, some id⟩)
    | .error fault => (failure fault, s)

def commit (s : Session) : List Output × Session :=
  match s.held with
  | none => ([.err "No open transaction"], s)
  | some id =>
    match s.db.commit id with
    | (.ok answers, db) =>
      (answers.flatMap answerLines ++ [.out (label id ++ " committed")], ⟨db, none⟩)
    | (.error fault, db) => ([.err (label id ++ " rolled back: " ++ fault.message)], ⟨db, none⟩)

def rollback (s : Session) : List Output × Session :=
  match s.held with
  | none => ([.err "No open transaction"], s)
  | some id =>
    match s.db.rollback id with
    | .ok db => ([.out (label id ++ " rolled back")], ⟨db, none⟩)
    | .error fault => (failure fault, { s with held := none })

def quit (s : Session) : List Output × Session :=
  match s.held with
  | none => ([], s)
  | some id =>
    match s.db.rollback id with
    | .ok db => ([.out (label id ++ " rolled back")], ⟨db, none⟩)
    | .error _ => ([], { s with held := none })

/-- Runs a line that begins with a dot. The result says whether the shell goes on. -/
def dotCommand (s : Session) (line : List Char) : List Output × Session × Bool :=
  let (name, rest) := nextPiece line
  let name := String.ofList name
  let goOn (r : List Output × Session) : List Output × Session × Bool := (r.1, r.2, true)
  if name = ".help" then (help.map .out, s, true)
  else if name = ".quit" ∨ name = ".exit" then
    match s.quit with
    | (output, s) => (output, s, false)
  else if name = ".tables" then (s.listTables, s, true)
  else if name = ".schema" then (s.describeAll (String.ofList (nextPiece rest).1), s, true)
  else if name = ".begin" then goOn s.begin
  else if name = ".commit" then goOn s.commit
  else if name = ".rollback" then goOn s.rollback
  else
    ([.err ("Unknown command: " ++ name), .err "Type '.help' for available commands."], s, true)

/-- Runs one line. Blanks around it do not count, and a blank line does nothing. -/
def step (s : Session) (line : String) : List Output × Session × Bool :=
  match strip isBlank line.toList with
  | [] => ([], s, true)
  | '.' :: rest => s.dotCommand ('.' :: rest)
  | cs =>
    match s.statement cs with
    | (output, s) => (output, s, true)

/-- Ends a session: a transaction that is still open is dropped without a word. -/
def finish (s : Session) : List Output × Session :=
  match s.held with
  | none => ([.out "Goodbye!"], s)
  | some id => ([.out "Goodbye!"], ⟨s.db.abandon id, none⟩)

def run (s : Session) : List String → List Output × Session
  | [] => s.finish
  | line :: lines =>
    match s.step line with
    | (output, s, true) =>
      match s.run lines with
      | (more, s) => (output ++ more, s)
    | (output, s, false) =>
      match s.finish with
      | (last, s) => (output ++ last, s)

end Session

end TableStore.Shell
