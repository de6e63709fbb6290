import TableStore.Command
import TableStore.Proofs.Table.Stored

/-! What a command does to a root. It looks at one file, the file of its table, and
what it leaves behind is that file, if anything: the effect says what it answers and
what it writes there, and running it carries the effect out. -/
namespace TableStore

open TableStore.Text TableStore.Sql

/-- The root after a file was given a new content, or left alone. -/
def Root.overwritten (r : Root) (name : String) : Option ByteArray → Root
  | some content => r.withFile name content
  | none => r

/-- Refuses a root in which no file for a new table can be made. -/
def Root.checkNew (r : Root) (table : String) : Except Fault Unit := do
  let _ ← r.tablePath table
  match r.place with
  | .plainFile => .error (.disk .exists)
  | _ =>
    if (r.entry? (tableFile table)).isSome then .error (.tableExists table)
    else if r.fits (tableFile table) then .ok ()
    else .error (.disk .nameTooLong)

/-- What `f` makes of the path and the bytes of a table's file. -/
def Root.onTable (r : Root) (table : String) (f : String → ByteArray → Except Fault α) :
    Except Fault α := do
  let path ← r.tablePath table
  match r.file? (tableFile table) with
  | none => .error (.tableNotFound table)
  | some bytes => f path bytes

/-- Finding a table fails as `onTable` does, or it gives the table whose file it reads. -/
theorem Table.find_cases (root : Root) (table : String) :
    (∃ fault, Table.find root table = .error fault ∧
      ∀ {α : Type} (f : String → ByteArray → Except Fault α),
        root.onTable table f = .error fault) ∨
    ∃ bytes, root.file? (tableFile table) = some bytes ∧ Table.find root table = .ok ⟨table⟩ ∧
      ∀ {α : Type} (f : String → ByteArray → Except Fault α),
        root.onTable table f = f (Table.path ⟨table⟩ root) bytes := by
  rw [Table.find_eq]
  unfold Root.onTable Root.tablePath
  by_cases hn : isTableName table = true
  · simp only [if_pos hn]
    cases root.file? (tableFile table) with
    | none => exact .inl ⟨_, rfl, fun f => rfl⟩
    | some bytes => exact .inr ⟨bytes, rfl, rfl, fun f => rfl⟩
  · simp only [if_neg hn]
    exact .inl ⟨_, rfl, fun f => rfl⟩

namespace Command

/-- What a command answers and writes when the file of its table holds `bytes`. -/
def revise (path : String) (bytes : ByteArray) :
    Command → Except Fault (Answer × Option ByteArray)
  | create table columns types => do
    let _ ← Schema.declare columns types
    .error (.tableExists table)
  | insert _ columns groups => do
    let rows ← (← Contents.decodeSchema path bytes).newRows columns groups
    let c ← Contents.decode path bytes
    let c : Contents := { c with rows := c.rows ++ rows }
    c.check
    return (counted rows.length "inserted", some c.encode)
  | select _ columns condition order => do
    let c ← Contents.decode path bytes
    return (← c.select columns condition order, none)
  | update _ assignments condition => do
    let c ← Contents.decode path bytes
    let (count, c) ← c.update assignments condition
    c.check
    return (counted count "updated", some c.encode)
  | delete _ condition => do
    let c ← Contents.decode path bytes
    let (count, c) := c.delete condition
    c.check
    return (counted count "deleted", some c.encode)

/-- What a command answers and writes to the file of its table. -/
def effect (root : Root) : Command → Except Fault (Answer × Option ByteArray)
  | create table columns types => do
    let schema ← Schema.declare columns types
    root.checkNew table
    return ({ message := some ("Table '" ++ table ++ "' created") },
      some (Contents.encode ⟨schema, []⟩))
  | c => root.onTable c.table fun path bytes => c.revise path bytes

def carryOut (root : Root) (file : String) :
    Except Fault (Answer × Option ByteArray) → Except Fault Answer × Root
  | .ok (answer, written) => (.ok answer, root.overwritten file written)
  | .error fault => (.error fault, root)

/-- A command on a table that is there: it fails in the same way if the table is not,
and else carries out what it makes of the table's file. -/
theorem find_bind_eq {root : Root} {table : String} {α : Type} {f : Table → Except Fault α}
    {g : String → ByteArray → Except Fault (Answer × Option ByteArray)}
    {k : Except Fault α → Except Fault Answer × Root}
    (refuse : ∀ fault, k (.error fault) = (.error fault, root))
    (found : ∀ bytes, root.file? (tableFile table) = some bytes →
      k (f ⟨table⟩) = carryOut root (tableFile table) (g (Table.path ⟨table⟩ root) bytes)) :
    k ((Table.find root table).bind f) =
      carryOut root (tableFile table) (root.onTable table g) := by
  rcases Table.find_cases root table with ⟨fault, hfind, hon⟩ | ⟨bytes, hb, hfind, hon⟩
  · rw [hfind, hon]
    exact refuse fault
  · rw [hfind, hon]
    exact found bytes hb

theorem run_insert (root : Root) (table : String) (columns : List String)
    (groups : List (List String)) :
    (insert table columns groups).run root =
      carryOut root (tableFile table) ((insert table columns groups).effect root) := by
  refine find_bind_eq (f := fun t => do t.insert root (← (← t.schema root).newRows columns groups))
    (g := fun path bytes => revise path bytes (insert table columns groups))
    (k := changed root "inserted") (fun _ => rfl) fun bytes hf => ?_
  rw [Table.schema_eq (t := ⟨table⟩) hf]
  simp only [revise]
  cases Contents.decodeSchema _ bytes with
  | error fault => rfl
  | ok s =>
    simp only [Outcome.ok_bind]
    cases s.newRows columns groups with
    | error fault => rfl
    | ok rows =>
      simp only [Outcome.ok_bind]
      rw [Table.insert_eq (t := ⟨table⟩) hf]
      cases Contents.decode _ bytes with
      | error fault => rfl
      | ok c =>
        simp only [Outcome.ok_bind, Except.bind]
        cases Contents.check _ <;> rfl

theorem run_select (root : Root) (table : String) (columns : List String)
    (condition : Option Condition) (order : Option String) :
    (select table columns condition order).run root =
      carryOut root (tableFile table) ((select table columns condition order).effect root) := by
  refine find_bind_eq (f := fun t => t.select root columns condition order)
    (g := fun path bytes => revise path bytes (select table columns condition order))
    (k := fun outcome => (outcome, root)) (fun _ => rfl) fun bytes hf => ?_
  rw [Table.select_eq (t := ⟨table⟩) hf]
  simp only [revise]
  cases Contents.decode _ bytes with
  | error fault => rfl
  | ok c =>
    simp only [Outcome.ok_bind, Except.bind]
    cases c.select columns condition order <;> rfl

theorem run_update (root : Root) (table : String) (assignments : List (String × String))
    (condition : Option Condition) :
    (update table assignments condition).run root =
      carryOut root (tableFile table) ((update table assignments condition).effect root) := by
  refine find_bind_eq (f := fun t => t.update root assignments condition)
    (g := fun path bytes => revise path bytes (update table assignments condition))
    (k := changed root "updated") (fun _ => rfl) fun bytes hf => ?_
  rw [Table.update_eq (t := ⟨table⟩) hf]
  simp only [revise]
  cases Contents.decode _ bytes with
  | error fault => rfl
  | ok c =>
    simp only [Outcome.ok_bind, Except.bind]
    cases c.update assignments condition with
    | error fault => rfl
    | ok p =>
      simp only [Outcome.ok_bind]
      cases p.2.check <;> rfl

theorem run_delete (root : Root) (table : String) (condition : Option Condition) :
    (delete table condition).run root =
      carryOut root (tableFile table) ((delete table condition).effect root) := by
  refine find_bind_eq (f := fun t => t.delete root condition)
    (g := fun path bytes => revise path bytes (delete table condition))
    (k := changed root "deleted") (fun _ => rfl) fun bytes hf => ?_
  rw [Table.delete_eq (t := ⟨table⟩) hf]
  simp only [revise]
  cases Contents.decode _ bytes with
  | error fault => rfl
  | ok c =>
    simp only [Outcome.ok_bind, Except.bind]
    cases (c.delete condition).2.check <;> rfl

/-- A creation that is refused only after it made the directory of the root: nothing
stood in its place, and the name is too long for a file. -/
def LeavesDirectory (root : Root) (c : Command) : Prop :=
  root.place = .nothing ∧ root.fits (tableFile c.table) = false ∧ isTableName c.table = true ∧
    ∃ columns types schema, c = create c.table columns types ∧
      Schema.declare columns types = .ok schema

theorem run_of_leavesDirectory {root : Root} {c : Command} (h : c.LeavesDirectory root) :
    c.effect root = .error (.disk .nameTooLong) ∧
      c.run root = (.error (.disk .nameTooLong), root.made) := by
  obtain ⟨hp, hf, hn, columns, types, schema, hc, hs⟩ := h
  generalize c.table = table at hf hn hc
  subst hc
  have free : ¬(root.entry? (tableFile table)).isSome = true := by
    simp [Root.entry?, hp]
  have unfit : ¬root.fits (tableFile table) = true := by
    rw [hf]
    nofun
  simp only [run, effect, hs, Outcome.ok_bind]
  constructor
  · unfold Root.checkNew
    rw [root.tablePath_of_isTableName hn, hp]
    simp only [Outcome.ok_bind]
    rw [if_neg free, if_neg unfit]
    rfl
  · rw [Table.create_eq (by rw [hp]; nofun) hn, if_neg free, if_neg unfit]

theorem run_create {root : Root} {table : String} {columns types : List String}
    (h : ¬(create table columns types).LeavesDirectory root) :
    (create table columns types).run root =
      carryOut root (tableFile table) ((create table columns types).effect root) := by
  simp only [run, effect]
  cases hs : Schema.declare columns types with
  | error fault => rfl
  | ok schema =>
    simp only [Outcome.ok_bind]
    by_cases hn : isTableName table = true
    · unfold Root.checkNew
      rw [root.tablePath_of_isTableName hn]
      rcases root.place_cases with hp | hp | hp
      · unfold Table.create
        rw [root.tablePath_of_isTableName hn, Root.ensure_of_plainFile hp, hp]
        rfl
      · have free : (root.entry? (tableFile table)).isSome = false := by
          simp [Root.entry?, hp]
        have fits : root.fits (tableFile table) = true := by
          by_contra hf
          exact h ⟨hp, eq_false_of_ne_true hf, hn, columns, types, schema, rfl, hs⟩
        rw [Table.create_eq (by rw [hp]; nofun) hn, hp, free, fits]
        rfl
      · rw [Table.create_eq (by rw [hp]; nofun) hn, Root.made_eq hp, hp]
        cases (root.entry? (tableFile table)).isSome with
        | true => rfl
        | false => cases root.fits (tableFile table) <;> rfl
    · unfold Table.create Root.checkNew Root.tablePath
      rw [if_neg hn]
      rfl

theorem run_eq {root : Root} {c : Command} (h : ¬c.LeavesDirectory root) :
    c.run root = carryOut root (tableFile c.table) (c.effect root) := by
  cases c with
  | create table columns types => exact run_create h
  | insert table columns groups => exact run_insert root table columns groups
  | select table columns condition order => exact run_select root table columns condition order
  | update table assignments condition => exact run_update root table assignments condition
  | delete table condition => exact run_delete root table condition

end Command

end TableStore
