import TableStore.Command

/-! The transaction slot of a root. At most one transaction is open; it queues
commands, and its commit runs all of them or puts every file back. -/
namespace TableStore

structure Transaction where
  id : Nat
  queue : List Command
deriving DecidableEq

structure Slot where
  current : Option Transaction := none
  nextId : Nat := 1
deriving DecidableEq

namespace Slot

/-- Opens a transaction in a free slot; a caller has to wait for a taken one. -/
def begin? (s : Slot) : Option (Nat × Slot) :=
  match s.current with
  | none => some (s.nextId, ⟨some ⟨s.nextId, []⟩, s.nextId + 1⟩)
  | some _ => none

def tryBegin (s : Slot) : Except Fault (Nat × Slot) :=
  match s.current with
  | none => .ok (s.nextId, ⟨some ⟨s.nextId, []⟩, s.nextId + 1⟩)
  | some t => .error (.transactionOpen t.id)

def find (s : Slot) (id : Nat) : Except Fault Transaction :=
  match s.current with
  | some t => if t.id = id then .ok t else .error (.transactionNotFound id)
  | none => .error (.transactionNotFound id)

/-- Adds a command to the end of a queue. Selections cannot be queued. -/
def enqueue (s : Slot) (id : Nat) (command : Command) : Except Fault Slot := do
  let t ← s.find id
  if command.isReadOnly then
    .error (.unsupported "SELECT inside a transaction; use query instead")
  else return { s with current := some { t with queue := t.queue ++ [command] } }

/-- Queues the command that a text consists of. The id is looked at before the text. -/
def exec (s : Slot) (id : Nat) (text : String) : Except Fault Slot := do
  let _ ← s.find id
  s.enqueue id (← Command.read text)

def pending (s : Slot) (id : Nat) : Except Fault (List Command) :=
  (s.find id).map Transaction.queue

def take (s : Slot) (id : Nat) : Except Fault (Transaction × Slot) := do
  let t ← s.find id
  return (t, { s with current := none })

end Slot

/-- What the files of some tables held, in the order in which they were noted;
nothing for a table whose file did not exist. -/
abbrev Journal := List (String × Option ByteArray)

namespace Journal

def note (j : Journal) (root : Root) (table : String) : Except Fault Journal :=
  if (j.lookup table).isSome then .ok j
  else do
    let _ ← root.tablePath table
    match root.readFile (tableFile table) with
    | .ok content => return j ++ [(table, some content)]
    | .error .missing => return j ++ [(table, none)]
    | .error fault => .error (.disk fault)

def restore (root : Root) (table : String) (content : Option ByteArray) : Except Fault Root := do
  let _ ← root.tablePath table
  match content with
  | some content =>
    match root.writeFile (tableFile table) content with
    | .ok root => return root
    | .error fault => .error (.disk fault)
  | none =>
    match root.removeFile (tableFile table) with
    | .ok root => return root
    | .error .missing => return root
    | .error fault => .error (.disk fault)

/-- Restores every noted table, going on after a failure. Gives the first failure. -/
def restoreAll (root : Root) : Journal → Option (String × Fault) × Root
  | [] => (none, root)
  | (table, content) :: rest =>
    match restore root table content with
    | .ok root => restoreAll root rest
    | .error fault => (some (table, fault), (restoreAll root rest).2)

/-- Undoes everything after a failure, which is reported together with the first
table that could not be restored. -/
def undo (j : Journal) (root : Root) (cause : Fault) : Fault × Root :=
  match restoreAll root j with
  | (none, root) => (cause, root)
  | (some (table, fault), root) => (.restoreFailed table cause fault, root)

end Journal

/-- Runs a queue in order, noting each table before its first command. The first
failure undoes what ran before it. -/
def runQueue (root : Root) (journal : Journal) :
    List Command → Except Fault (List Answer) × Root
  | [] => (.ok [], root)
  | command :: rest =>
    match journal.note root command.table with
    | .error fault =>
      let (fault, root) := journal.undo root fault
      (.error fault, root)
    | .ok journal =>
      match command.run root with
      | (.error fault, root) =>
        let (fault, root) := journal.undo root fault
        (.error fault, root)
      | (.ok answer, root) =>
        match runQueue root journal rest with
        | (.ok answers, root) => (.ok (answer :: answers), root)
        | (.error fault, root) => (.error fault, root)

def Transaction.apply (t : Transaction) (root : Root) : Except Fault (List Answer) × Root :=
  runQueue root [] t.queue

end TableStore
