import TableStore.Proofs.Database.Single
import TableStore.Proofs.Indexed.Contents
import TableStore.Proofs.Indexed.Statement

/-! A database by position. Each of its operations comes to the outcome that it has without
positions, so none is out of range: not in a text, not in a row, and not in a file, whatever
stands there. -/
namespace TableStore.Indexed

open TableStore.Sql

variable {root : Root} {t : Table}

def schemaOf (t : Table) (root : Root) : Indexed Schema := do
  let bytes ← of (t.bytes root)
  decodeSchema (t.path root) bytes

def contents (t : Table) (root : Root) : Indexed Contents := do
  let bytes ← of (t.bytes root)
  decode (t.path root) bytes

def insertInto (root : Root) (table : String) (columns : List String)
    (groups : List (List String)) : Indexed (Nat × Root) := do
  let t ← of (Table.find root table)
  let schema ← schemaOf t root
  let rows ← newRows schema columns groups
  let c ← contents t root
  let root ← of (t.replace root { c with rows := c.rows ++ rows })
  return (rows.length, root)

def selectFrom (root : Root) (table : String) (columns : List String)
    (condition : Option Condition) (order : Option String) : Indexed Answer := do
  let t ← of (Table.find root table)
  let c ← contents t root
  select c columns condition order

def updateIn (root : Root) (table : String) (assignments : List (String × String))
    (condition : Option Condition) : Indexed (Nat × Root) := do
  let t ← of (Table.find root table)
  let c ← contents t root
  let (count, c) ← update c assignments condition
  let root ← of (t.replace root c)
  return (count, root)

def deleteFrom (root : Root) (table : String) (condition : Option Condition) :
    Indexed (Nat × Root) := do
  let t ← of (Table.find root table)
  let c ← contents t root
  let (count, c) ← delete c condition
  let root ← of (t.replace root c)
  return (count, root)

def runCommand (root : Root) : Command → Option (Except Fault Answer × Root)
  | .create table columns types => do
    match ← (declare columns types).run with
    | .error fault => return (.error fault, root)
    | .ok schema =>
      match Table.create root table schema with
      | (.error fault, root) => return (.error fault, root)
      | (.ok _, root) => return (.ok { message := some ("Table '" ++ table ++ "' created") }, root)
  | .insert table columns groups => do
    let outcome ← (insertInto root table columns groups).run
    return Command.changed root "inserted" outcome
  | .select table columns condition order => do
    let outcome ← (selectFrom root table columns condition order).run
    return (outcome, root)
  | .update table assignments condition => do
    let outcome ← (updateIn root table assignments condition).run
    return Command.changed root "updated" outcome
  | .delete table condition => do
    let outcome ← (deleteFrom root table condition).run
    return Command.changed root "deleted" outcome

def runCommands (root : Root) (journal : Journal) :
    List Command → Option (Except Fault (List Answer) × Root)
  | [] => some (.ok [], root)
  | command :: rest =>
    match journal.note root command.table with
    | .error fault =>
      let (fault, root) := journal.undo root fault
      some (.error fault, root)
    | .ok journal => do
      match ← runCommand root command with
      | (.error fault, root) =>
        let (fault, root) := journal.undo root fault
        return (.error fault, root)
      | (.ok answer, root) =>
        match ← runCommands root journal rest with
        | (.ok answers, root) => return (.ok (answer :: answers), root)
        | (.error fault, root) => return (.error fault, root)

def command (text : String) : Indexed Command := do
  let statement ← statement text
  return Command.ofStatement statement

def exec (db : Database) (id : Nat) (text : String) : Indexed Database := do
  let _ ← of (db.slot.find id)
  let command ← command text
  of (db.enqueue id command)

def commit (db : Database) (id : Nat) : Option (Except Fault (List Answer) × Database) :=
  match db.slot.take id with
  | .error fault => some (.error fault, db)
  | .ok (t, slot) => do
    let (outcome, root) ← runCommands db.root [] t.queue
    return (outcome, ⟨root, slot⟩)

/-- Runs one statement in a transaction of its own; `some none` while the caller has to wait. -/
def execute? (db : Database) (text : String) :
    Option (Option (Except Fault Answer × Database)) :=
  match db.begin? with
  | none => some none
  | some (id, db) => do
    match ← (exec db id text).run with
    | .error fault => return some (.error fault, db.abandon id)
    | .ok db =>
      match ← commit db id with
      | (.ok answers, db) => return some (.ok (answers.getLastD {}), db)
      | (.error fault, db) => return some (.error fault, db)

def ask (db : Database) (command : Command) : Indexed Answer := do
  if command.isReadOnly then
    let (outcome, _) ← ExceptT.lift (runCommand db.root command)
    of outcome
  else throw (.unsupported (command.summary ++ " outside a transaction; use begin/exec/commit"))

def query (db : Database) (text : String) : Indexed Answer := do
  let command ← command text
  ask db command

def queryRow (db : Database) (text : String) : Indexed Row := do
  let answer ← query db text
  of (Database.firstRow answer)

def schema (db : Database) (name : String) : Indexed Schema := do
  let t ← of (Table.find db.root name)
  schemaOf t db.root

@[simp] theorem run_of (x : Except Fault α) : (of x).run = some x := rfl

theorem schemaOf_eq (t : Table) (root : Root) : schemaOf t root = of (t.schema root) :=
  bind_eq rfl fun _ _ => decodeSchema_eq _ _

theorem contents_eq (t : Table) (root : Root) : contents t root = of (t.contents root) :=
  bind_eq rfl fun _ _ => decode_eq _ _

theorem insertInto_eq (root : Root) (table : String) (columns : List String)
    (groups : List (List String)) :
    insertInto root table columns groups = of (Command.insertInto root table columns groups) := by
  refine bind_eq rfl fun t _ => bind_eq (schemaOf_eq t root) fun schema _ => ?_
  refine bind_eq (newRows_eq schema columns groups) fun rows _ => ?_
  exact bind_eq (contents_eq t root) fun c _ => bind_eq rfl fun root _ => rfl

theorem selectFrom_eq (root : Root) (table : String) (columns : List String)
    (condition : Option Condition) (order : Option String) :
    selectFrom root table columns condition order =
      of ((Table.find root table).bind fun t => t.select root columns condition order) := by
  refine bind_eq rfl fun t _ => bind_eq (contents_eq t root) fun c hc => ?_
  exact select_eq (Table.length_of_contents hc) columns condition order

theorem updateIn_eq (root : Root) (table : String) (assignments : List (String × String))
    (condition : Option Condition) :
    updateIn root table assignments condition =
      of ((Table.find root table).bind fun t => t.update root assignments condition) := by
  refine bind_eq rfl fun t _ => bind_eq (contents_eq t root) fun c hc => ?_
  refine bind_eq (update_eq (Table.length_of_contents hc) assignments condition) fun (count, c) _ => ?_
  exact bind_eq rfl fun root _ => rfl

theorem deleteFrom_eq (root : Root) (table : String) (condition : Option Condition) :
    deleteFrom root table condition =
      of ((Table.find root table).bind fun t => t.delete root condition) := by
  refine bind_eq rfl fun t _ => bind_eq (contents_eq t root) fun c hc => ?_
  rw [delete_eq, ok_bind]
  exact bind_eq rfl fun root _ => rfl

theorem runCommand_eq (root : Root) (command : Command) :
    runCommand root command = some (command.run root) := by
  cases command with
  | create table columns types =>
    rw [runCommand, Command.run, declare_eq, run_of]
    cases Schema.declare columns types with
    | error fault => rfl
    | ok schema =>
      simp only [Option.bind_eq_bind, Option.bind_some]
      obtain ⟨outcome, after⟩ := Table.create root table schema
      cases outcome <;> rfl
  | insert table columns groups =>
    rw [runCommand, Command.run, insertInto_eq]
    rfl
  | select table columns condition order =>
    rw [runCommand, Command.run, selectFrom_eq]
    rfl
  | update table assignments condition =>
    rw [runCommand, Command.run, updateIn_eq]
    rfl
  | delete table condition =>
    rw [runCommand, Command.run, deleteFrom_eq]
    rfl

theorem runCommands_eq (root : Root) (journal : Journal) (commands : List Command) :
    runCommands root journal commands = some (runQueue root journal commands) := by
  induction commands generalizing root journal with
  | nil => rfl
  | cons command rest ih =>
    unfold runCommands runQueue
    cases journal.note root command.table with
    | error fault => rfl
    | ok journal =>
      dsimp only
      rw [runCommand_eq]
      obtain ⟨outcome, after⟩ := command.run root
      cases outcome with
      | error fault => rfl
      | ok answer =>
        simp only [Option.bind_eq_bind, Option.bind_some, ih]
        obtain ⟨outcome, after⟩ := runQueue after journal rest
        cases outcome <;> rfl

theorem command_eq (text : String) : command text = of (Command.read text) := by
  unfold command Command.read
  rw [statement_eq]
  cases Statement.read text <;> rfl

theorem exec_eq (db : Database) (id : Nat) (text : String) :
    exec db id text = of (db.exec id text) := by
  unfold exec Database.exec Slot.exec
  cases db.slot.find id with
  | error fault => rfl
  | ok t =>
    rw [ok_bind, command_eq, Outcome.ok_bind]
    cases Command.read text <;> rfl

theorem commit_eq (db : Database) (id : Nat) : commit db id = some (db.commit id) := by
  unfold commit Database.commit
  cases db.slot.take id with
  | error fault => rfl
  | ok p =>
    dsimp only
    rw [runCommands_eq]
    rfl

/-- The transaction that has just been opened is the one that a text is queued in. -/
theorem exec_opened (root : Root) (slot : Slot) (text : String) :
    Database.exec ⟨root, slot.opened []⟩ slot.nextId text =
      (Command.read text).bind (Database.enqueue ⟨root, slot.opened []⟩ slot.nextId) := by
  have found : (slot.opened []).find slot.nextId = .ok ⟨slot.nextId, []⟩ := if_pos rfl
  unfold Database.exec Slot.exec
  rw [found, Outcome.ok_bind]
  cases Command.read text <;> rfl

theorem execute?_eq (db : Database) (text : String) :
    execute? db text = some (db.execute? text) := by
  unfold execute? Database.execute? Database.transact?
  cases hbegin : db.begin? with
  | none => rfl
  | some p =>
    obtain ⟨-, rfl⟩ := Database.begin?_eq_some.mp hbegin
    dsimp only
    rw [exec_eq, run_of, exec_opened, Option.map_some]
    generalize (Command.read text).bind _ = outcome
    cases outcome with
    | error fault => rfl
    | ok queued =>
      simp only [Option.bind_eq_bind, Option.bind_some, commit_eq]
      obtain ⟨outcome, after⟩ := queued.commit db.slot.nextId
      cases outcome <;> rfl

theorem ask_eq (db : Database) (command : Command) : ask db command = of (db.ask command) := by
  unfold ask Database.ask
  split
  · rw [runCommand_eq]
    rfl
  · rfl

theorem query_eq (db : Database) (text : String) : query db text = of (db.query text) :=
  bind_eq (command_eq text) fun command _ => ask_eq db command

theorem queryRow_eq (db : Database) (text : String) : queryRow db text = of (db.queryRow text) :=
  bind_eq (query_eq db text) fun _ _ => rfl

theorem schema_eq (db : Database) (name : String) : schema db name = of (db.schema name) :=
  bind_eq rfl fun t _ => schemaOf_eq t db.root

/-- Whatever the files of a database hold and whatever text it is given, reading the text, a
statement of its own, a selection and its first row, queueing, a commit, also of what has just been
queued, and reading a schema come to the outcomes that they have without positions. So no position
is out of range and no loop goes on for ever; a statement of its own waits exactly for a slot that
is taken. -/
theorem positions_in_range (db : Database) (id : Nat) (text name : String) :
    statement text = of (Statement.read text) ∧
      execute? db text = some (db.execute? text) ∧
      (execute? db text = some none ↔ db.slot.current ≠ none) ∧
      query db text = of (db.query text) ∧ queryRow db text = of (db.queryRow text) ∧
      exec db id text = of (db.exec id text) ∧ commit db id = some (db.commit id) ∧
      schema db name = of (db.schema name) := by
  have waits : execute? db text = some none ↔ db.slot.current ≠ none := by
    rw [execute?_eq, Option.some_inj]
    exact Database.execute?_eq_none
  exact ⟨statement_eq text, execute?_eq db text, waits, query_eq db text, queryRow_eq db text,
    exec_eq db id text, commit_eq db id, schema_eq db name⟩

end TableStore.Indexed
