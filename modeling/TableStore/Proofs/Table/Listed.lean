import TableStore.Proofs.Root.Listing
import TableStore.Proofs.Table.Creation

/-! Listing the tables, asking for one and finding it. The three go by the same names, unless
the path of the root is empty: then nothing is listed, whatever is there. -/
namespace TableStore

open TableStore.Text TableStore.Sql

/-- What makes a table: a file that is named after it. -/
def IsTableEntry (file : String) (entry : Entry) : Prop :=
  ∃ name content, isTableName name = true ∧ file = tableFile name ∧ entry = .file content

theorem not_isTableEntry_directory (file : String) : ¬IsTableEntry file .directory := by
  rintro ⟨_, _, -, -, h⟩
  cases h

theorem not_isTableEntry_of_tableOfFile? {file : String} (h : tableOfFile? file = none)
    (entry : Entry) : ¬IsTableEntry file entry := by
  rintro ⟨name, _, named, hfile, -⟩
  rw [tableOfFile?_eq_some.mpr ⟨named, hfile⟩] at h
  cases h

namespace Root

variable {r : Root} {file name : String} {entry : Entry} {t : Table}

def withEntry (r : Root) (file : String) (entry : Entry) : Root :=
  { r with place := .directory (r.directory.put file entry) }

@[simp] theorem holds?_withEntry : (r.withEntry file entry).holds? name =
    if name = file then some entry else r.holds? name :=
  Directory.find?_put ..

theorem find_eq_ok_iff : Table.find r name = .ok t ↔ t = ⟨name⟩ ∧ r.hasTable name = true := by
  rw [Table.find_eq]
  unfold hasTable
  rw [isFile_eq]
  cases isTableName name <;> cases (r.file? (tableFile name)).isSome <;> simp [eq_comm]

/-- An entry that makes no table might as well be missing. -/
theorem hasTable_withEntry (h : ¬IsTableEntry file entry) :
    (r.withEntry file entry).hasTable name = (r.without file).hasTable name := by
  unfold hasTable
  cases named : isTableName name with
  | false => rfl
  | true =>
    rw [Bool.true_and, Bool.true_and, isFile_eq, isFile_eq]
    by_cases hfile : tableFile name = file
    · subst hfile
      have hidden : (r.withEntry (tableFile name) entry).file? (tableFile name) = none := by
        rw [Option.eq_none_iff_forall_ne_some]
        intro content hc
        have held := (file?_eq_some.mp hc).2
        rw [holds?_withEntry, if_pos rfl] at held
        exact h ⟨name, content, named, rfl, Option.some.inj held⟩
      rw [hidden, file?_of_holds?_eq_none (by simp)]
    · have path : (r.withEntry file entry).path = (r.without file).path := rfl
      have same : (r.withEntry file entry).holds? (tableFile name) =
          (r.without file).holds? (tableFile name) := by
        simp [hfile]
      rw [file?_congr path same]

/-- Whatever a root holds, in whatever order: the tables are listed by name, each once. A table
is there exactly if it is found, and exactly those that are there are listed, unless the path of
the root is empty and there are some. Directories, and files that are not named after a table,
change nothing in the list. -/
theorem tables_agree_iff (r : Root) :
    r.tables.Pairwise (· < ·) ∧
    (∀ name t, Table.find r name = .ok t ↔ t = ⟨name⟩ ∧ r.hasTable name = true) ∧
    (∀ name, name ∈ r.tables ↔ r.path ≠ "" ∧ r.hasTable name = true) ∧
    ((∀ name, name ∈ r.tables ↔ r.hasTable name = true) ↔
      r.path ≠ "" ∨ ∀ name, r.hasTable name = false) ∧
    (∀ file entry, ¬IsTableEntry file entry →
      (r.withEntry file entry).tables = (r.without file).tables) ∧
    (∀ file, ¬IsTableEntry file .directory) ∧
    ∀ file ∈ [".csv", "a.b.csv", "t.CSV"], ∀ entry, ¬IsTableEntry file entry := by
  have others : ∀ file ∈ [".csv", "a.b.csv", "t.CSV"], tableOfFile? file = none := by decide
  refine ⟨r.tables_increasing, fun _ _ => find_eq_ok_iff, fun _ => mem_tables_iff, ?_,
    fun file entry h => tables_congr_of_hasTable rfl fun name => hasTable_withEntry h,
    not_isTableEntry_directory,
    fun file hfile => not_isTableEntry_of_tableOfFile? (others file hfile)⟩
  constructor
  · intro whole
    by_contra! h
    obtain ⟨hpath, name, there⟩ := h
    have listed := (whole name).mpr (by simpa using there)
    exact (mem_tables_iff.mp listed).1 hpath
  · rintro (hpath | none) name
    · rw [mem_tables_iff, and_iff_right hpath]
    · simp [mem_tables_iff, none name]

/-- One table among entries that look like tables. -/
theorem tables_agree_iff_strange :
    let r : Root := ⟨"db", .directory (.ofList [("t.csv", .file .empty), ("s.csv", .directory),
      (".csv", .file .empty), ("a.b.csv", .file .empty), ("t.CSV", .file .empty)])⟩
    r.path ≠ "" ∧ Table.find r "t" = .ok ⟨"t"⟩ ∧ r.tables = ["t"] ∧
      (r.withEntry "t.CSV" .directory).tables = (r.without "t.CSV").tables := by
  intro r
  obtain ⟨-, found, -, -, other, -, strange⟩ := r.tables_agree_iff
  have there : r.hasTable "t" = true := by decide
  have only : r.tables = ["t"] := by decide +kernel
  exact ⟨by decide, (found "t" ⟨"t"⟩).mpr ⟨rfl, there⟩, only, other _ _ (strange _ (by simp) _)⟩

/-- Where the path is empty, a table that was made is found and not listed. -/
theorem tables_empty_path_unlisted :
    let root : Root := ⟨"", .directory .empty⟩
    ∃ s after, Schema.declare ["id"] ["int64"] = .ok s ∧
      Table.create root "t" s = (.ok ⟨"t"⟩, after) ∧ after.hasTable "t" = true ∧
      Table.find after "t" = .ok ⟨"t"⟩ ∧ after.tables = [] := by
  intro root
  let s : Schema := ⟨[⟨"id", .int64⟩], by decide⟩
  have fits : root.fits (tableFile "t") = true := by decide
  let after := root.withFile (tableFile "t") (Contents.encode ⟨s, []⟩)
  have created : Table.create root "t" s = (.ok ⟨"t"⟩, after) :=
    Table.create_eq_ok.mpr ⟨by simp [root], by decide, by decide, fits, rfl, rfl⟩
  have found : Table.find after "t" = .ok ⟨"t"⟩ := Table.find_withFile (by decide) fits
  exact ⟨s, after, rfl, created, (find_eq_ok_iff.mp found).2, found, rfl⟩

end Root

end TableStore
