import TableStore.Proofs.Command.Run
import TableStore.Proofs.Sql.Declared
import TableStore.Proofs.Table.Typed

/-! Well-formed roots: every entry is the file of a table, written out from typed
contents and read back as these. Commands keep a root well-formed. -/
namespace TableStore

open TableStore.Text TableStore.Sql

/-- An entry of a root is the file of a table: it is named for the table, holds nothing
but its contents written out, and the table can be read. -/
structure Root.HoldsTable (r : Root) (file : String) (entry : Entry) (name : String)
    (c : Contents) : Prop where
  named : isTableName name = true
  file : file = tableFile name
  bytes : entry = .file c.encode
  typed : c.WellTyped
  read : Table.contents ⟨name⟩ r = .ok c

def Root.WellFormed (r : Root) : Prop :=
  ∀ file entry, r.holds? file = some entry → ∃ name c, r.HoldsTable file entry name c

namespace Root

variable {r s : Root} {name : String} {c : Contents}

theorem wellFormed_of_holds?_eq_none (h : ∀ file, r.holds? file = none) : r.WellFormed := by
  intro file entry he
  rw [h] at he
  cases he

theorem holdsTable_of_fits (hn : isTableName name = true) (hf : r.fits (tableFile name) = true)
    (hh : r.holds? (tableFile name) = some (.file c.encode)) (ht : c.WellTyped) :
    r.HoldsTable (tableFile name) (.file c.encode) name c := by
  refine ⟨hn, rfl, rfl, ht, ?_⟩
  rw [Table.contents_eq (t := ⟨name⟩) (file?_eq_some.mpr ⟨hf, hh⟩)]
  exact ht.decode _

theorem HoldsTable.fits {file : String} {entry : Entry} (h : r.HoldsTable file entry name c) :
    r.fits (tableFile name) = true := by
  obtain ⟨bytes, hb, -⟩ := Outcome.bind_eq_ok.mp h.read
  exact (file?_eq_some.mp (Table.bytes_eq_ok.mp hb)).1

theorem WellFormed.congr (h : r.WellFormed) (hs : s.SameEntries r) : s.WellFormed := by
  intro file entry he
  rw [hs.entries] at he
  obtain ⟨name, c, ht⟩ := h file entry he
  have hf := ht.fits
  obtain ⟨hn, rfl, rfl, typed, -⟩ := ht
  refine ⟨name, c, holdsTable_of_fits hn ?_ ?_ typed⟩
  · rw [fits_congr hs.path, hf]
  · rw [hs.entries, he]

/-- Writing out typed contents of a table keeps a root well-formed. -/
theorem WellFormed.withFile (h : r.WellFormed) (hn : isTableName name = true)
    (hf : r.fits (tableFile name) = true) (ht : c.WellTyped) :
    (r.withFile (tableFile name) c.encode).WellFormed := by
  intro file entry he
  rw [holds?_withFile] at he
  split at he
  · next heq =>
    cases he
    subst heq
    refine ⟨name, c, holdsTable_of_fits hn ?_ ?_ ht⟩
    · rw [fits_congr path_withFile, hf]
    · rw [holds?_withFile, if_pos rfl]
  · next hne =>
    obtain ⟨other, d, hd⟩ := h file entry he
    have hf' := hd.fits
    obtain ⟨hn', rfl, rfl, typed, -⟩ := hd
    refine ⟨other, d, holdsTable_of_fits hn' ?_ ?_ typed⟩
    · rw [fits_congr path_withFile, hf']
    · rw [holds?_withFile, if_neg hne, he]

end Root

namespace Command

variable {root : Root} {c : Command} {answer : Answer}

/-- A creation declares a column at least. -/
def Declares (c : Command) : Prop :=
  ∀ table columns types, c = create table columns types → columns ≠ []

theorem declares_of_read {text : String} (h : Command.read text = .ok c) : c.Declares := by
  rintro table columns types rfl
  obtain ⟨s, hs, hc⟩ := Outcome.map_eq_ok.mp h
  unfold ofStatement at hc
  split at hc
  · next hv =>
    cases hc
    exact Statement.columns_of_create hs hv
  all_goals cases hc

theorem declares_of_not_create (h : ∀ table columns types, c ≠ create table columns types) :
    c.Declares :=
  fun table columns types hc => absurd hc (h table columns types)

theorem revise_wellTyped {path : String} {old : Contents} (h : old.WellTyped) {bytes : ByteArray}
    (hr : c.revise path old.encode = .ok (answer, some bytes)) :
    ∃ new, new.WellTyped ∧ bytes = Contents.encode new := by
  have hdecode := h.decode path
  have hschema := Contents.decodeSchema_encode path h.columns h.check
  cases c with
  | create table columns types =>
    obtain ⟨_, -, hr⟩ := Outcome.bind_eq_ok.mp hr
    cases hr
  | insert table columns groups =>
    simp only [revise, hdecode, hschema, Outcome.ok_bind] at hr
    obtain ⟨rows, hrows, hr⟩ := Outcome.bind_eq_ok.mp hr
    obtain ⟨_, -, hr⟩ := Outcome.bind_eq_ok.mp hr
    cases hr
    exact ⟨_, h.insert (Schema.newRows_holds hrows), rfl⟩
  | select table columns condition order =>
    simp only [revise, hdecode, Outcome.ok_bind] at hr
    obtain ⟨_, -, hr⟩ := Outcome.bind_eq_ok.mp hr
    cases hr
  | update table assignments condition =>
    simp only [revise, hdecode, Outcome.ok_bind] at hr
    obtain ⟨p, hp, hr⟩ := Outcome.bind_eq_ok.mp hr
    obtain ⟨_, -, hr⟩ := Outcome.bind_eq_ok.mp hr
    cases hr
    exact ⟨_, h.update hp, rfl⟩
  | delete table condition =>
    simp only [revise, hdecode, Outcome.ok_bind] at hr
    obtain ⟨_, -, hr⟩ := Outcome.bind_eq_ok.mp hr
    cases hr
    exact ⟨_, h.delete condition, rfl⟩

/-- What a command writes in a well-formed root are typed contents. -/
theorem effect_wellTyped (h : root.WellFormed) (hc : c.Declares) {bytes : ByteArray}
    (he : c.effect root = .ok (answer, some bytes)) :
    ∃ new, new.WellTyped ∧ bytes = Contents.encode new := by
  have shared (hr : (root.onTable c.table fun path bytes => c.revise path bytes) =
      .ok (answer, some bytes)) : ∃ new, new.WellTyped ∧ bytes = Contents.encode new := by
    obtain ⟨hn, old, hold, hr⟩ := Root.onTable_eq_ok.mp hr
    -- The bytes that the command reads were written from typed contents.
    obtain ⟨name, d, -, -, heq, typed, -⟩ := h _ _ (Root.file?_eq_some.mp hold).2
    cases heq
    exact revise_wellTyped typed hr
  cases c with
  | create table columns types =>
    obtain ⟨schema, hs, he⟩ := Outcome.bind_eq_ok.mp he
    obtain ⟨_, -, he⟩ := Outcome.bind_eq_ok.mp he
    cases he
    have hne : schema.columns ≠ [] := by
      intro hnil
      apply hc table columns types rfl
      rw [(Schema.declare_eq_ok.mp hs).1, Schema.names_eq_nil_iff.mpr hnil]
    exact ⟨⟨schema, []⟩, ⟨hne, nofun⟩, rfl⟩
  | insert => exact shared he
  | select => exact shared he
  | update => exact shared he
  | delete => exact shared he

theorem run_wellFormed (h : root.WellFormed) (hc : c.Declares) :
    (c.run root).2.WellFormed := by
  cases hr : (c.run root).1 with
  | error fault => exact h.congr (sameEntries_of_run_error hr)
  | ok answer =>
    obtain ⟨written, he⟩ := run_eq_ok.mp hr
    rw [run_of_effect_ok he]
    have hrun := runnable_of_effect he
    cases written with
    | none => exact h
    | some bytes =>
      obtain ⟨new, typed, rfl⟩ := effect_wellTyped h hc he
      exact h.withFile hrun.named hrun.fits typed

end Command

end TableStore
