import TableStore.Transaction

/-! A database: a root and its transaction slot. Changes go through transactions,
selections read the files as they are and wait for nothing. -/
namespace TableStore

structure Database where
  root : Root
  slot : Slot := {}

namespace Database

/-- Opens a root, making its directory if there is none. -/
def openAt (root : Root) : Except Fault Database :=
  match root.ensure with
  | .ok root => .ok { root }
  | .error fault => .error (.disk fault)

def active? (db : Database) : Option Nat :=
  db.slot.current.map Transaction.id

/-- Opens a transaction; none while the caller has to wait for another one. -/
def begin? (db : Database) : Option (Nat × Database) :=
  db.slot.begin?.map fun (id, slot) => (id, { db with slot })

def tryBegin (db : Database) : Except Fault (Nat × Database) :=
  db.slot.tryBegin.map fun (id, slot) => (id, { db with slot })

def enqueue (db : Database) (id : Nat) (command : Command) : Except Fault Database :=
  (db.slot.enqueue id command).map fun slot => { db with slot }

def exec (db : Database) (id : Nat) (text : String) : Except Fault Database :=
  (db.slot.exec id text).map fun slot => { db with slot }

def pending (db : Database) (id : Nat) : Except Fault (List Command) :=
  db.slot.pending id

/-- Runs a transaction's queue, all or nothing, and frees the slot either way. -/
def commit (db : Database) (id : Nat) : Except Fault (List Answer) × Database :=
  match db.slot.take id with
  | .error fault => (.error fault, db)
  | .ok (t, slot) =>
    match t.apply db.root with
    | (outcome, root) => (outcome, ⟨root, slot⟩)

def rollback (db : Database) (id : Nat) : Except Fault Database :=
  (db.slot.take id).map fun (_, slot) => { db with slot }

/-- Ends a transaction whose holder is gone; it may have ended before. -/
def abandon (db : Database) (id : Nat) : Database :=
  match db.rollback id with
  | .ok db => db
  | .error _ => db

/-- Runs one command in a transaction of its own; none while the caller has to wait. -/
def transact? (db : Database) (command : Except Fault Command) :
    Option (Except Fault Answer × Database) :=
  db.begin?.map fun (id, db) =>
    match command.bind (db.enqueue id) with
    | .error fault => (.error fault, db.abandon id)
    | .ok db =>
      match db.commit id with
      | (.ok answers, db) => (.ok (answers.getLastD {}), db)
      | (.error fault, db) => (.error fault, db)

def execute? (db : Database) (text : String) : Option (Except Fault Answer × Database) :=
  db.transact? (Command.read text)

/-- Runs a command outside any transaction. -/
def run (db : Database) (command : Command) : Except Fault Answer × Database :=
  match command.run db.root with
  | (outcome, root) => (outcome, { db with root })

def runText (db : Database) (text : String) : Except Fault Answer × Database :=
  match Command.read text with
  | .error fault => (.error fault, db)
  | .ok command => db.run command

def ask (db : Database) (command : Command) : Except Fault Answer :=
  if command.isReadOnly then (command.run db.root).1
  else .error (.unsupported (command.summary ++ " outside a transaction; use begin/exec/commit"))

def query (db : Database) (text : String) : Except Fault Answer := do
  db.ask (← Command.read text)

def firstRow (answer : Answer) : Except Fault Row :=
  match answer.rows with
  | row :: _ => .ok row
  | [] => .error .noRows

def queryRow (db : Database) (text : String) : Except Fault Row := do
  firstRow (← db.query text)

def hasTable (db : Database) (name : String) : Bool :=
  db.root.hasTable name

def tables (db : Database) : List String :=
  db.root.tables

def schema (db : Database) (name : String) : Except Fault Schema := do
  (← Table.find db.root name).schema db.root

end Database

/-- A transaction that is held by one holder, who ends it exactly once. -/
structure Guard where
  id : Nat

namespace Guard

def open? (db : Database) : Option (Guard × Database) :=
  db.begin?.map fun (id, db) => (⟨id⟩, db)

def exec (g : Guard) (db : Database) (text : String) : Except Fault Database :=
  db.exec g.id text

def pending (g : Guard) (db : Database) : Except Fault (List Command) :=
  db.pending g.id

def commit (g : Guard) (db : Database) : Except Fault (List Answer) × Database :=
  db.commit g.id

def rollback (g : Guard) (db : Database) : Except Fault Database :=
  db.rollback g.id

def drop (g : Guard) (db : Database) : Database :=
  db.abandon g.id

end Guard

end TableStore
