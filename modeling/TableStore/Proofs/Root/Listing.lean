import Mathlib.Data.List.Sort
import Mathlib.Data.String.Basic
import TableStore.Proofs.Root.Entries

/-! The listing of a root. A file is listed under the name whose file it is. Entries may be
listed in any order; the names of the tables come out the same. -/
namespace TableStore

open TableStore.Text TableStore.Sql

section Names

variable {cs stem extension : List Char} {file name : String}

theorem splitLastDot_eq_none : splitLastDot cs = none ↔ '.' ∉ cs := by
  induction cs with
  | nil => simp [splitLastDot]
  | cons c rest ih =>
    unfold splitLastDot
    cases h : splitLastDot rest with
    | none => simp [← ih, h, eq_comm]
    | some cut => simp [← ih, h]

theorem splitLastDot_append (stem : List Char) (h : '.' ∉ extension) :
    splitLastDot (stem ++ '.' :: extension) = some (stem, extension) := by
  induction stem with
  | nil =>
    rw [List.nil_append, splitLastDot, splitLastDot_eq_none.mpr h]
    rfl
  | cons c rest ih => rw [List.cons_append, splitLastDot, ih]

theorem of_splitLastDot_eq_some (h : splitLastDot cs = some (stem, extension)) :
    cs = stem ++ '.' :: extension := by
  induction cs generalizing stem with
  | nil => cases h
  | cons c rest ih =>
    unfold splitLastDot at h
    split at h
    · next front back hr =>
      cases h
      rw [List.cons_append, ← ih hr]
    · split at h
      · next hc =>
        cases h
        rw [hc, List.nil_append]
      · cases h

theorem toList_tableFile (name : String) :
    (tableFile name).toList = name.toList ++ '.' :: tableExtension.toList := by
  simp [tableFile]

/-- The name of a table is found in the name of the table's own file, and in no other. -/
theorem tableOfFile?_eq_some : tableOfFile? file = some name ↔
    isTableName name = true ∧ file = tableFile name := by
  constructor
  · intro h
    unfold tableOfFile? at h
    dsimp only at h
    split at h
    · next c stem extension cut =>
      split at h
      · next both =>
        cases h
        refine ⟨both.2, String.toList_inj.mp ?_⟩
        rw [of_splitLastDot_eq_some cut, both.1, toList_tableFile, String.toList_ofList]
      · cases h
    · cases h
  · rintro ⟨isName, rfl⟩
    have dotless : '.' ∉ tableExtension.toList := by decide
    have cut := splitLastDot_append name.toList dotless
    rw [← toList_tableFile] at cut
    unfold tableOfFile?
    rw [cut]
    cases hn : name.toList with
    | nil =>
      rw [String.toList_eq_nil_iff.mp hn] at isName
      contradiction
    | cons c rest =>
      have whole : String.ofList (c :: rest) = name := by rw [← hn, String.ofList_toList]
      simp [whole, isName]

end Names

namespace Directory

theorem mem_entries_iff (d : Directory) (name : String) (entry : Entry) :
    (name, entry) ∈ d.entries ↔ d.find? name = some entry := by
  obtain ⟨entries, distinct⟩ := d
  show (name, entry) ∈ entries ↔ entries.lookup name = some entry
  induction entries with
  | nil => simp
  | cons e rest ih =>
    obtain ⟨other, held⟩ := e
    rw [List.map_cons, List.nodup_cons] at distinct
    rw [List.mem_cons, ih distinct.2, List.lookup_cons]
    by_cases h : name = other
    · subst h
      have absent : rest.lookup name ≠ some entry := by
        intro hl
        have hm := (ih distinct.2).mpr hl
        exact distinct.1 (List.mem_map.mpr ⟨_, hm, rfl⟩)
      simp [absent, eq_comm]
    · simp [h, beq_eq_false_iff_ne.mpr h]

end Directory

namespace Root

variable {r s : Root} {file name : String} {entry : Entry}

/-- The table that an entry of the root is. -/
def listed? (r : Root) (e : String × Entry) : Option String :=
  match e with
  | (file, .file _) => if r.fits file then tableOfFile? file else none
  | (_, .directory) => none

theorem listed?_eq_some : r.listed? (file, entry) = some name ↔
    isTableName name = true ∧ file = tableFile name ∧
      r.fits file = true ∧ ∃ content, entry = .file content := by
  cases entry with
  | directory => simp [listed?]
  | file content =>
    unfold listed?
    by_cases hf : r.fits file = true
    · simp [hf, tableOfFile?_eq_some]
    · simp [hf]

theorem tables_eq (r : Root) : r.tables = if r.path = "" then [] else
    (r.directory.entries.filterMap r.listed?).mergeSort fun a b => decide (a ≤ b) := by
  have empty : (Directory.empty.entries.filterMap r.listed?).mergeSort
      (fun a b => decide (a ≤ b)) = [] := by
    simp [Directory.empty]
  unfold tables
  rcases r.place_cases with h | h | h
  · have hd : r.directory = .empty := by simp [directory, h]
    rw [h, hd, empty, ite_self]
  · have hd : r.directory = .empty := by simp [directory, h]
    rw [h, hd, empty, ite_self]
  · rw [h]
    rfl

/-- A table is listed if it is there, unless the path of the root is empty. -/
theorem mem_tables_iff : name ∈ r.tables ↔ r.path ≠ "" ∧ r.hasTable name = true := by
  have present : r.hasTable name = true ↔ ∃ file entry,
      r.holds? file = some entry ∧ r.listed? (file, entry) = some name := by
    unfold hasTable
    rw [Bool.and_eq_true, isFile_eq, Option.isSome_iff_exists]
    constructor
    · rintro ⟨isName, content, hc⟩
      obtain ⟨hf, hh⟩ := file?_eq_some.mp hc
      exact ⟨_, _, hh, listed?_eq_some.mpr ⟨isName, rfl, hf, content, rfl⟩⟩
    · rintro ⟨file, entry, hh, hl⟩
      obtain ⟨isName, rfl, hf, content, rfl⟩ := listed?_eq_some.mp hl
      exact ⟨isName, content, file?_eq_some.mpr ⟨hf, hh⟩⟩
  rw [tables_eq, present]
  split
  · next hp => simp [hp]
  · next hp =>
    rw [List.mem_mergeSort, List.mem_filterMap, Prod.exists]
    simp only [Directory.mem_entries_iff, ne_eq, hp, not_false_eq_true, true_and]
    rfl

theorem nodup_listed (r : Root) : (r.directory.entries.filterMap r.listed?).Nodup := by
  have apart : r.directory.entries.Pairwise fun a b => a.1 ≠ b.1 :=
    List.pairwise_map.mp r.directory.distinct
  refine List.Pairwise.filterMap r.listed? ?_ apart
  rintro ⟨_, _⟩ ⟨_, _⟩ other name hname _ hname' rfl
  exact other ((listed?_eq_some.mp hname).2.1.trans (listed?_eq_some.mp hname').2.1.symm)

/-- The tables are listed by name, each of them once. -/
theorem tables_increasing (r : Root) : r.tables.Pairwise (· < ·) := by
  rw [tables_eq]
  split
  · exact List.Pairwise.nil
  have trans (a b c : String) (hab : decide (a ≤ b) = true) (hbc : decide (b ≤ c) = true) :
      decide (a ≤ c) = true :=
    decide_eq_true (String.le_trans (of_decide_eq_true hab) (of_decide_eq_true hbc))
  have total (a b : String) : (decide (a ≤ b) || decide (b ≤ a)) = true := by
    simpa using String.le_total a b
  have sorted := List.pairwise_mergeSort trans total (r.directory.entries.filterMap r.listed?)
  have apart := (List.mergeSort_perm _ fun a b => decide (a ≤ b)).nodup_iff.mpr r.nodup_listed
  refine (sorted.and apart).imp ?_
  rintro a b ⟨hle, hne⟩
  exact lt_of_le_of_ne (of_decide_eq_true hle) hne

theorem tables_congr_of_hasTable (hp : r.path = s.path)
    (h : ∀ name, r.hasTable name = s.hasTable name) : r.tables = s.tables := by
  refine r.tables_increasing.eq_of_mem_iff s.tables_increasing fun name => ?_
  rw [mem_tables_iff, mem_tables_iff, hp, h]

theorem tables_congr (h : r.SameEntries s) : r.tables = s.tables := by
  refine tables_congr_of_hasTable h.path fun name => ?_
  unfold hasTable
  rw [isFile_eq, isFile_eq, file?_congr h.path (h.entries _)]

end Root

end TableStore
