import TableStore.Proofs.Command.Run
import TableStore.Proofs.Table.Rows

/-! Commands on a table that can be read: what they make of its contents. -/
namespace TableStore

open TableStore.Text TableStore.Sql

/-- A table is there and can be read. -/
def Root.Reads (r : Root) (table : String) (c : Contents) : Prop :=
  r.onTable table Contents.decode = .ok c

variable {r s : Root} {table : String} {c new : Contents} {rows : List Row} {answer : Answer}
  {written : Option ByteArray}

namespace Root

theorem reads_iff : r.Reads table c ↔ isTableName table = true ∧ ∃ bytes,
    r.file? (tableFile table) = some bytes ∧
      Contents.decode (joinPath r.path (tableFile table)) bytes = .ok c :=
  onTable_eq_ok

theorem reads_of_contents {t : Table} (found : Table.find r table = .ok t)
    (read : t.contents r = .ok c) : r.Reads table c := by
  rcases Table.find_cases r table with ⟨fault, hfind, -⟩ | ⟨bytes, hb, hfind, hon⟩
  · rw [hfind] at found
    cases found
  · rw [hfind] at found
    cases found
    unfold Reads
    rw [hon, ← read]
    exact (Table.contents_eq (t := ⟨table⟩) hb).symm

theorem Reads.contents (h : r.Reads table c) : Table.contents ⟨table⟩ r = .ok c := by
  obtain ⟨-, bytes, hfile, hread⟩ := reads_iff.mp h
  rw [Table.contents_eq (t := ⟨table⟩) hfile]
  exact hread

theorem Reads.congr (h : r.Reads table c) (hs : s.SameEntries r) : s.Reads table c :=
  (onTable_congr hs.path (hs.entries _) _).trans h

theorem Reads.unique {d : Contents} (h : r.Reads table c) (hd : r.Reads table d) : c = d :=
  Except.ok.inj (h.symm.trans hd)

theorem Reads.file?_ne_none (h : r.Reads table c) : r.file? (tableFile table) ≠ none := by
  obtain ⟨-, bytes, hfile, -⟩ := reads_iff.mp h
  rw [hfile]
  nofun

theorem Reads.columns (h : r.Reads table c) : c.schema.columns ≠ [] :=
  Table.columns_of_contents h.contents

theorem Reads.length (h : r.Reads table c) : ∀ row ∈ c.rows, row.length = c.schema.width :=
  Table.length_of_contents h.contents

theorem reads_withFile (hname : isTableName table = true) (hfits : r.fits (tableFile table) = true)
    (hcolumns : c.schema.columns ≠ []) (hcheck : c.check = .ok ()) :
    (r.withFile (tableFile table) c.encode).Reads table c :=
  reads_iff.mpr ⟨hname, _, file?_withFile hfits, Contents.decode_encode _ hcolumns hcheck⟩

theorem Reads.withFile (h : r.Reads table c) (hcolumns : new.schema.columns ≠ [])
    (hcheck : new.check = .ok ()) : (r.withFile (tableFile table) new.encode).Reads table new := by
  obtain ⟨hname, bytes, hfile, -⟩ := reads_iff.mp h
  exact reads_withFile hname (file?_eq_some.mp hfile).1 hcolumns hcheck

end Root

namespace Command

theorem effect_eq_revise (h : r.Reads table c) (command : Command) (hname : command.table = table)
    (hcommand : command.verb ≠ .create) : ∃ bytes,
      Contents.decode (joinPath r.path (tableFile table)) bytes = .ok c ∧
      command.effect r = command.revise (joinPath r.path (tableFile table)) bytes := by
  subst hname
  obtain ⟨hname, bytes, hfile, hread⟩ := Root.reads_iff.mp h
  refine ⟨bytes, hread, ?_⟩
  have hon : r.onTable command.table (fun path bytes => command.revise path bytes) =
      command.revise (joinPath r.path (tableFile command.table)) bytes := by
    unfold Root.onTable
    rw [r.tablePath_of_isTableName hname, Outcome.ok_bind, hfile]
  cases command with
  | create => exact absurd rfl hcommand
  | insert => exact hon
  | select => exact hon
  | update => exact hon
  | delete => exact hon

/-- A command that succeeds, other than making a table, finds one that can be read. -/
theorem exists_reads_of_effect {command : Command} (hcommand : command.verb ≠ .create)
    (h : command.effect r = .ok (answer, written)) : ∃ c, r.Reads command.table c := by
  have shared (hon : (r.onTable command.table fun path bytes => command.revise path bytes) =
      .ok (answer, written)) : ∃ c, r.Reads command.table c := by
    obtain ⟨hname, bytes, hfile, hr⟩ := Root.onTable_eq_ok.mp hon
    have hread : ∃ c, Contents.decode (joinPath r.path (tableFile command.table)) bytes =
        .ok c := by
      cases command with
      | create => exact absurd rfl hcommand
      | insert =>
        obtain ⟨schema, -, hr⟩ := Outcome.bind_eq_ok.mp hr
        obtain ⟨rows, -, hr⟩ := Outcome.bind_eq_ok.mp hr
        obtain ⟨c, hc, -⟩ := Outcome.bind_eq_ok.mp hr
        exact ⟨c, hc⟩
      | select => exact (Outcome.bind_eq_ok.mp hr).imp fun _ => And.left
      | update => exact (Outcome.bind_eq_ok.mp hr).imp fun _ => And.left
      | delete => exact (Outcome.bind_eq_ok.mp hr).imp fun _ => And.left
    obtain ⟨c, hc⟩ := hread
    exact ⟨c, Root.reads_iff.mpr ⟨hname, bytes, hfile, hc⟩⟩
  cases command with
  | create => exact absurd rfl hcommand
  | insert => exact shared h
  | select => exact shared h
  | update => exact shared h
  | delete => exact shared h

theorem effect_select (h : r.Reads table c) (columns : List String) (condition : Option Condition)
    (order : Option String) : (select table columns condition order).effect r =
      (c.select columns condition order).map fun answer => (answer, none) := by
  obtain ⟨bytes, hread, heffect⟩ := effect_eq_revise h
    (select table columns condition order) rfl nofun
  rw [heffect]
  simp only [revise, hread, Outcome.ok_bind]
  cases c.select columns condition order <;> rfl

theorem effect_insert_eq_ok (h : r.Reads table c) {columns : List String}
    {groups : List (List String)} :
    (insert table columns groups).effect r = .ok (answer, written) ↔ ∃ rows,
      c.schema.newRows columns groups = .ok rows ∧
      Contents.check { c with rows := c.rows ++ rows } = .ok () ∧
      answer = counted rows.length "inserted" ∧
      written = some (Contents.encode { c with rows := c.rows ++ rows }) := by
  obtain ⟨bytes, hread, heffect⟩ := effect_eq_revise h
    (insert table columns groups) rfl nofun
  rw [heffect]
  simp only [revise, Contents.decodeSchema_of_decode hread, hread, Outcome.ok_bind,
    Outcome.bind_eq_ok, Outcome.pure_eq_ok]
  constructor
  · rintro ⟨rows, hrows, _, hcheck, hresult⟩
    cases hresult
    exact ⟨rows, hrows, hcheck, rfl, rfl⟩
  · rintro ⟨rows, hrows, hcheck, rfl, rfl⟩
    exact ⟨rows, hrows, (), hcheck, rfl⟩

theorem effect_update_eq_ok (h : r.Reads table c) {assignments : List (String × String)}
    {condition : Option Condition} :
    (update table assignments condition).effect r = .ok (answer, written) ↔ ∃ count new,
      c.update assignments condition = .ok (count, new) ∧ new.check = .ok () ∧
      answer = counted count "updated" ∧ written = some new.encode := by
  obtain ⟨bytes, hread, heffect⟩ := effect_eq_revise h
    (update table assignments condition) rfl nofun
  rw [heffect]
  simp only [revise, hread, Outcome.ok_bind, Outcome.bind_eq_ok, Outcome.pure_eq_ok]
  constructor
  · rintro ⟨⟨count, new⟩, hupdate, _, hcheck, hresult⟩
    cases hresult
    exact ⟨count, new, hupdate, hcheck, rfl, rfl⟩
  · rintro ⟨count, new, hupdate, hcheck, rfl, rfl⟩
    exact ⟨(count, new), hupdate, (), hcheck, rfl⟩

theorem effect_delete_eq_ok (h : r.Reads table c) {condition : Option Condition} :
    (delete table condition).effect r = .ok (answer, written) ↔
      (c.delete condition).2.check = .ok () ∧
      answer = counted (c.delete condition).1 "deleted" ∧
      written = some (c.delete condition).2.encode := by
  obtain ⟨bytes, hread, heffect⟩ := effect_eq_revise h (delete table condition) rfl nofun
  rw [heffect]
  simp only [revise, hread, Outcome.ok_bind, Outcome.bind_eq_ok, Outcome.pure_eq_ok]
  constructor
  · rintro ⟨_, hcheck, hresult⟩
    cases hresult
    exact ⟨hcheck, rfl, rfl⟩
  · rintro ⟨hcheck, rfl, rfl⟩
    exact ⟨(), hcheck, rfl⟩

theorem effect_create_eq_ok {columns types : List String} :
    (create table columns types).effect r = .ok (answer, written) ↔ ∃ schema,
      Schema.declare columns types = .ok schema ∧ r.checkNew table = .ok () ∧
      answer = { message := some ("Table '" ++ table ++ "' created") } ∧
      written = some (Contents.encode ⟨schema, []⟩) := by
  simp only [effect, Outcome.bind_eq_ok, Outcome.pure_eq_ok]
  constructor
  · rintro ⟨schema, hschema, _, hnew, hresult⟩
    cases hresult
    exact ⟨schema, hschema, hnew, rfl, rfl⟩
  · rintro ⟨schema, hschema, hnew, rfl, rfl⟩
    exact ⟨schema, hschema, (), hnew, rfl⟩

end Command

end TableStore
