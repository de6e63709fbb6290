import Mathlib.Logic.Function.Basic
import TableStore.Database

/-! Calls on a database and runs of them. A run is any order in which the calls of any
number of clients are served, each as one step; what is committed on the way can be told
from the calls and the replies alone. -/
namespace TableStore

/-- What a client can ask of a database. A guard is only used by its holder. -/
inductive Call where
  | begin
  | tryBegin
  | exec (id : Nat) (text : String)
  | pending (id : Nat)
  | commit (id : Nat)
  | rollback (id : Nat)
  | active
  | openGuard
  | guardExec (guard : Guard) (text : String)
  | guardPending (guard : Guard)
  | guardCommit (guard : Guard)
  | guardRollback (guard : Guard)
  | guardDrop (guard : Guard)
  | execute (text : String)
  | query (text : String)
  | queryRow (text : String)
  | schema (table : String)
  | hasTable (table : String)
  | tables

/-- What a client is told. A client that waits is told so, and has to call again. -/
inductive Reply where
  | waits
  | refused (fault : Fault)
  | done
  | begun (id : Nat)
  | opened (guard : Guard)
  | queued (commands : List Command)
  | committed (answers : List Answer)
  | active (id : Option Nat)
  | answer (answer : Answer)
  | row (row : Row)
  | schema (schema : Schema)
  | found (found : Bool)
  | tables (names : List String)

def Reply.ofOutcome (reply : α → Reply) : Except Fault α → Reply
  | .ok a => reply a
  | .error fault => .refused fault

namespace Database

/-- The reply to an outcome that may come with a new state of the database. -/
def settled (db : Database) : Except Fault Database → Reply × Database
  | .ok db => (.done, db)
  | .error fault => (.refused fault, db)

/-- Serves one call. A call that has to wait changes nothing. -/
def serve (db : Database) : Call → Reply × Database
  | .begin =>
    match db.begin? with
    | some (id, db) => (.begun id, db)
    | none => (.waits, db)
  | .tryBegin =>
    match db.tryBegin with
    | .ok (id, db) => (.begun id, db)
    | .error fault => (.refused fault, db)
  | .exec id text => db.settled (db.exec id text)
  | .pending id => (.ofOutcome .queued (db.pending id), db)
  | .commit id => (db.commit id).map (.ofOutcome .committed) fun db => db
  | .rollback id => db.settled (db.rollback id)
  | .active => (.active db.active?, db)
  | .openGuard =>
    match Guard.open? db with
    | some (guard, db) => (.opened guard, db)
    | none => (.waits, db)
  | .guardExec guard text => db.settled (guard.exec db text)
  | .guardPending guard => (.ofOutcome .queued (guard.pending db), db)
  | .guardCommit guard => (guard.commit db).map (.ofOutcome .committed) fun db => db
  | .guardRollback guard => db.settled (guard.rollback db)
  | .guardDrop guard => (.done, guard.drop db)
  | .execute text =>
    match db.execute? text with
    | some (outcome, db) => (.ofOutcome .answer outcome, db)
    | none => (.waits, db)
  | .query text => (.ofOutcome .answer (db.query text), db)
  | .queryRow text => (.ofOutcome .row (db.queryRow text), db)
  | .schema table => (.ofOutcome .schema (db.schema table), db)
  | .hasTable table => (.found (db.hasTable table), db)
  | .tables => (.tables db.tables, db)

end Database

/-- The call that does the same to a database. A guard stands for the id of its
transaction, and a client that would not wait for the slot is served like one that would. -/
def Call.plain : Call → Call
  | .tryBegin | .openGuard => .begin
  | .guardExec guard text => .exec guard.id text
  | .guardPending guard => .pending guard.id
  | .guardCommit guard => .commit guard.id
  | .guardRollback guard | .guardDrop guard => .rollback guard.id
  | call => call

theorem Database.serve_plain (db : Database) (call : Call) :
    (db.serve call.plain).2 = (db.serve call).2 := by
  cases call with
  | tryBegin =>
    simp only [serve, Call.plain, begin?, tryBegin, Slot.begin?, Slot.tryBegin]
    cases db.slot.current <;> rfl
  | openGuard =>
    simp only [serve, Call.plain, Guard.open?]
    cases db.begin? <;> rfl
  | guardDrop guard =>
    simp only [serve, Call.plain, Guard.drop, abandon]
    cases db.rollback guard.id <;> rfl
  | _ => rfl

def Call.isReading : Call → Bool
  | .query _ | .queryRow _ | .schema _ | .hasTable _ | .tables => true
  | _ => false

/-- What the clients know: the commands that each transaction was given, and the queues
that were committed, in order. -/
structure Ledger where
  queue : Nat → List Command := fun _ => []
  committed : List (List Command) := []

namespace Ledger

def queued (l : Ledger) (id : Nat) (text : String) : Ledger :=
  match Command.read text with
  | .ok c => { l with queue := Function.update l.queue id (l.queue id ++ [c]) }
  | .error _ => l

/-- Enters a call and the reply to it. -/
def enter (l : Ledger) : Call → Reply → Ledger
  | .exec id text, .done => l.queued id text
  | .guardExec guard text, .done => l.queued guard.id text
  | .commit id, .committed _ => { l with committed := l.committed ++ [l.queue id] }
  | .guardCommit guard, .committed _ => { l with committed := l.committed ++ [l.queue guard.id] }
  | .execute text, .answer _ =>
    match Command.read text with
    | .ok c => { l with committed := l.committed ++ [[c]] }
    | .error _ => l
  | _, _ => l

end Ledger

/-- A database in use, and what its clients know. -/
structure Session where
  db : Database
  ledger : Ledger := {}

namespace Session

def step (s : Session) (call : Call) : Session :=
  ⟨(s.db.serve call).2, s.ledger.enter call (s.db.serve call).1⟩

theorem step_plain (s : Session) (call : Call) : s.step call.plain = s.step call := by
  have entered : s.ledger.enter call.plain (s.db.serve call.plain).1 =
      s.ledger.enter call (s.db.serve call).1 := by
    cases call with
    | guardExec guard text =>
      show s.ledger.enter (.exec guard.id text) (s.db.serve (.exec guard.id text)).1 =
        s.ledger.enter (.guardExec guard text) (s.db.serve (.exec guard.id text)).1
      cases (s.db.serve (.exec guard.id text)).1 <;> rfl
    | guardCommit guard =>
      show s.ledger.enter (.commit guard.id) (s.db.serve (.commit guard.id)).1 =
        s.ledger.enter (.guardCommit guard) (s.db.serve (.commit guard.id)).1
      cases (s.db.serve (.commit guard.id)).1 <;> rfl
    | _ => rfl
  unfold step
  rw [Database.serve_plain, entered]

/-- The calls of all clients, in the order in which they are served. -/
def run (s : Session) (calls : List Call) : Session :=
  calls.foldl step s

end Session

end TableStore
