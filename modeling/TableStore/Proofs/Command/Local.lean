import TableStore.Proofs.Command.Reads
import TableStore.Proofs.Command.WellFormed

/-! Commands without a transaction. Each is atomic by itself and stays with its own table: it
rewrites one file at most, as its last step, and the schema in that file stays. -/
namespace TableStore

open TableStore.Text TableStore.Sql

/-- Both readers of a table's file find this schema in it. -/
structure Root.Describes (r : Root) (table : String) (s : Schema) : Prop where
  schema : Table.schema ⟨table⟩ r = .ok s
  contents : ∃ rows, Table.contents ⟨table⟩ r = .ok ⟨s, rows⟩

variable {root : Root} {table : String} {c old : Contents} {answer : Answer}
  {written : Option ByteArray}

theorem Root.Reads.describes (h : root.Reads table c) : root.Describes table c.schema := by
  obtain ⟨-, bytes, hfile, hread⟩ := Root.reads_iff.mp h
  refine ⟨?_, c.rows, h.contents⟩
  rw [Table.schema_eq (t := ⟨table⟩) hfile]
  exact Contents.decodeSchema_of_decode hread

theorem Contents.schema_of_update {assignments : List (String × String)}
    {condition : Option Condition} {count : Nat} {new : Contents}
    (h : old.update assignments condition = .ok (count, new)) : new.schema = old.schema := by
  obtain ⟨values, -, h⟩ := Outcome.bind_eq_ok.mp h
  cases h
  rfl

namespace Command

variable {command : Command}

/-- The schema that a command is to leave in the file of its table: what a creation declares,
else what is there before. -/
def Leaves (root : Root) : Command → Schema → Prop
  | create _ columns types, s => s.names = columns ∧ s.types.map ColumnType.name = types
  | command, s => root.Describes command.table s

/-- A change of rows writes contents with the schema of those that it read. -/
theorem rewrites_of_effect (hcommand : command.verb ≠ .create)
    (changing : command.isReadOnly = false) (h : command.effect root = .ok (answer, written)) :
    ∃ old new : Contents, root.Reads command.table old ∧ new.schema = old.schema ∧
      new.check = .ok () ∧ written = some new.encode := by
  obtain ⟨old, reads⟩ := exists_reads_of_effect hcommand h
  refine ⟨old, ?_⟩
  cases command with
  | create => exact absurd rfl hcommand
  | select => cases changing
  | insert table columns groups =>
    obtain ⟨rows, -, hcheck, -, rfl⟩ := (effect_insert_eq_ok reads).mp h
    exact ⟨{ old with rows := old.rows ++ rows }, reads, rfl, hcheck, rfl⟩
  | update table assignments condition =>
    obtain ⟨count, new, hupdate, hcheck, -, rfl⟩ := (effect_update_eq_ok reads).mp h
    exact ⟨new, reads, Contents.schema_of_update hupdate, hcheck, rfl⟩
  | delete table condition =>
    obtain ⟨hcheck, -, rfl⟩ := (effect_delete_eq_ok reads).mp h
    exact ⟨(old.delete condition).2, reads, rfl, hcheck, rfl⟩

theorem hasTable_withFile (named : isTableName table = true)
    (fits : root.fits (tableFile table) = true) (bytes : ByteArray) :
    (root.withFile (tableFile table) bytes).hasTable table = true := by
  unfold Root.hasTable
  rw [named, Root.isFile_eq, Root.file?_withFile fits]
  rfl

/-- What a change that succeeds leaves behind: its table, and in it the schema. -/
theorem leaves_of_effect (changing : command.isReadOnly = false)
    (h : command.effect root = .ok (answer, written)) :
    (root.overwritten (tableFile command.table) written).hasTable command.table = true ∧
      (command.Declares → ∃ s, command.Leaves root s ∧
        (root.overwritten (tableFile command.table) written).Describes command.table s) := by
  have runnable := runnable_of_effect h
  by_cases hcommand : command.verb = .create
  · cases command with
    | create table columns types =>
      obtain ⟨schema, declared, -, -, rfl⟩ := effect_create_eq_ok.mp h
      refine ⟨hasTable_withFile runnable.named runnable.fits _, fun declares => ?_⟩
      obtain ⟨hnames, htypes⟩ := Schema.declare_eq_ok.mp declared
      have hcolumns : schema.columns ≠ [] := by
        rw [ne_eq, ← Schema.names_eq_nil_iff, ← hnames]
        exact declares table columns types rfl
      exact ⟨schema, ⟨hnames.symm, htypes.symm⟩, Root.Reads.describes (c := ⟨schema, []⟩)
        (Root.reads_withFile runnable.named runnable.fits hcolumns
          (Contents.check_eq_ok.mpr nofun))⟩
    | _ => cases hcommand
  · obtain ⟨old, new, reads, hschema, hcheck, rfl⟩ := rewrites_of_effect hcommand changing h
    refine ⟨hasTable_withFile runnable.named runnable.fits _, fun _ => ⟨old.schema, ?_, ?_⟩⟩
    · cases command with
      | create => exact absurd rfl hcommand
      | _ => exact reads.describes
    · rw [← hschema]
      exact (reads.withFile (hschema ▸ reads.columns) hcheck).describes

/-- A command changes no file but that of its table, and none at all if it fails or is a
selection. After a change that succeeds the table is there, and unless a creation declared no
column, both readers find the schema in it that was declared or that was there before. -/
theorem run_atomic_local (root : Root) (command : Command) :
    (∀ file, file ≠ tableFile command.table →
      (command.run root).2.holds? file = root.holds? file) ∧
    (((∃ fault, (command.run root).1 = .error fault) ∨ command.verb = .select) →
      (command.run root).2.SameEntries root) ∧
    ∀ answer, (command.run root).1 = .ok answer → command.verb ≠ .select →
      (command.run root).2.hasTable command.table = true ∧
      (command.Declares → ∃ s, command.Leaves root s ∧
        (command.run root).2.Describes command.table s) := by
  refine ⟨fun file hfile => ?_, ?_, fun answer hrun hverb => ?_⟩
  · have same : Root.AgreeOn (· = file) (command.run root).2 root :=
      agreeOn_run_self root fun heq => hfile heq.symm
    exact same.entries file rfl
  · rintro (⟨fault, failed⟩ | reading)
    · exact sameEntries_of_run_error failed
    · cases command with
      | select => exact Root.SameEntries.refl root
      | _ => cases reading
  · obtain ⟨written, heffect⟩ := run_eq_ok.mp hrun
    rw [run_of_effect_ok heffect]
    exact leaves_of_effect (by simpa [isReadOnly, Verb.isReadOnly] using hverb) heffect

end Command

end TableStore
