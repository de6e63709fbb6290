import TableStore.Table
import TableStore.Proofs.Root.Entries
import TableStore.Proofs.Table.Codec

/-! Tables in a root, in terms of what the root holds under their file names. -/
namespace TableStore

open TableStore.Text TableStore.Sql

/-- A file of this name can be written: the root has its directory, the name fits, and
no directory stands in its place. -/
structure Root.Writable (r : Root) (name : String) : Prop where
  place : r.place = .directory r.directory
  fits : r.fits name = true
  free : r.holds? name ≠ some .directory

namespace Root

variable {r : Root} {name : String} {content : ByteArray}

theorem writable_of_file? (h : r.file? name = some content) : r.Writable name := by
  obtain ⟨hf, hc⟩ := file?_eq_some.mp h
  refine ⟨place_of_holds? hc, hf, ?_⟩
  rw [hc]
  nofun

theorem Writable.writeFile (h : r.Writable name) (content : ByteArray) :
    r.writeFile name content = .ok (r.withFile name content) :=
  writeFile_eq_withFile h.place h.fits h.free

theorem Writable.withFile {other : String} (h : r.Writable name) :
    (r.withFile other content).Writable name := by
  refine ⟨rfl, ?_, ?_⟩
  · rw [fits_congr path_withFile, h.fits]
  · rw [holds?_withFile]
    split
    · nofun
    · exact h.free

theorem Writable.without {other : String} (h : r.Writable name) :
    (r.without other).Writable name := by
  refine ⟨rfl, ?_, ?_⟩
  · rw [fits_congr path_without, h.fits]
  · rw [holds?_without]
    split
    · nofun
    · exact h.free

theorem file?_withFile (h : r.fits name = true) :
    (r.withFile name content).file? name = some content := by
  rw [file?_eq_some]
  refine ⟨?_, by simp⟩
  rw [fits_congr path_withFile, h]

end Root

namespace Table

variable {t : Table} {root : Root}

theorem find_eq (root : Root) (name : String) : find root name =
    if isTableName name then
      if (root.file? (tableFile name)).isSome then .ok ⟨name⟩ else .error (.tableNotFound name)
    else .error (.badTableName name) := by
  unfold find Root.tablePath
  rw [Root.isFile_eq]
  cases isTableName name <;> rfl

theorem bytes_eq_ok {content : ByteArray} :
    t.bytes root = .ok content ↔ root.file? (tableFile t.name) = some content := by
  rw [← Root.readFile_eq_ok]
  unfold bytes
  split
  · next h => simp [h]
  · next h => simp [h]
  · next h => simp [h]

theorem contents_eq {content : ByteArray} (h : root.file? (tableFile t.name) = some content) :
    t.contents root = Contents.decode (t.path root) content := by
  unfold contents
  rw [bytes_eq_ok.mpr h]
  rfl

theorem schema_eq {content : ByteArray} (h : root.file? (tableFile t.name) = some content) :
    t.schema root = Contents.decodeSchema (t.path root) content := by
  unfold schema
  rw [bytes_eq_ok.mpr h]
  rfl

theorem replace_eq (h : root.Writable (tableFile t.name)) (c : Contents) :
    t.replace root c = c.check.map fun _ => root.withFile (tableFile t.name) c.encode := by
  unfold replace
  rw [h.writeFile]
  cases c.check <;> rfl

theorem replace_eq_ok (h : root.Writable (tableFile t.name)) {c : Contents} {after : Root} :
    t.replace root c = .ok after ↔
      c.check = .ok () ∧ root.withFile (tableFile t.name) c.encode = after := by
  rw [replace_eq h, Outcome.map_eq_ok]
  exact ⟨fun ⟨_, hc⟩ => hc, fun hc => ⟨(), hc⟩⟩

/-- A new table whose name is too long is refused only after the directory is made. -/
theorem create_eq (hp : root.place ≠ .plainFile) {name : String} (hn : isTableName name = true)
    (s : Schema) : create root name s =
      if (root.entry? (tableFile name)).isSome then (.error (.tableExists name), root.made)
      else if root.fits (tableFile name) then
        (.ok ⟨name⟩, root.withFile (tableFile name) (Contents.encode ⟨s, []⟩))
      else (.error (.disk .nameTooLong), root.made) := by
  unfold create
  rw [root.tablePath_of_isTableName hn, Root.ensure_eq_made hp]
  simp only [Root.entry?_made]
  by_cases he : (root.entry? (tableFile name)).isSome = true
  · rw [if_pos he, if_pos he]
  · rw [if_neg he, if_neg he]
    by_cases hf : root.fits (tableFile name) = true
    · have free : root.holds? (tableFile name) = none := by
        rw [Root.entry?_eq, if_pos hf] at he
        simpa using he
      have hw : root.made.Writable (tableFile name) := by
        refine ⟨rfl, hf, ?_⟩
        rw [Root.holds?_made, free]
        nofun
      rw [if_pos hf, replace_eq (t := ⟨name⟩) hw]
      rfl
    · have unfit : root.made.fits (tableFile name) = false := by
        rw [Root.fits_congr Root.path_made]
        simpa using hf
      rw [if_neg hf]
      unfold replace
      rw [Root.writeFile_of_not_fits rfl unfit]
      rfl

section OnFile

variable {bytes : ByteArray} (h : root.file? (tableFile t.name) = some bytes)
include h

theorem select_eq (columns : List String) (condition : Option Condition)
    (order : Option String) : t.select root columns condition order =
      (Contents.decode (t.path root) bytes).bind fun c => c.select columns condition order := by
  unfold select
  rw [contents_eq h]
  rfl

/-- A change of the contents, carried out on the file. -/
theorem replace_bind (f : Contents → Except Fault (Nat × Contents)) :
    ((t.contents root).bind fun c => (f c).bind fun p =>
      (t.replace root p.2).map fun root => (p.1, root)) =
    (Contents.decode (t.path root) bytes).bind fun c => (f c).bind fun p =>
      p.2.check.map fun _ => (p.1, root.withFile (tableFile t.name) p.2.encode) := by
  rw [contents_eq h]
  congr 1
  funext c
  congr 1
  funext p
  rw [replace_eq (Root.writable_of_file? h)]
  cases p.2.check <;> rfl

theorem insert_eq (rows : List Row) : t.insert root rows =
    (Contents.decode (t.path root) bytes).bind fun c =>
      (Contents.check { c with rows := c.rows ++ rows }).map fun _ =>
        (rows.length, root.withFile (tableFile t.name)
          (Contents.encode { c with rows := c.rows ++ rows })) :=
  replace_bind h fun c => .ok (rows.length, { c with rows := c.rows ++ rows })

theorem update_eq (assignments : List (String × String)) (condition : Option Condition) :
    t.update root assignments condition =
      (Contents.decode (t.path root) bytes).bind fun c =>
        (c.update assignments condition).bind fun p => p.2.check.map fun _ =>
          (p.1, root.withFile (tableFile t.name) p.2.encode) :=
  replace_bind h fun c => c.update assignments condition

theorem delete_eq (condition : Option Condition) : t.delete root condition =
    (Contents.decode (t.path root) bytes).bind fun c =>
      (c.delete condition).2.check.map fun _ =>
        ((c.delete condition).1,
          root.withFile (tableFile t.name) (c.delete condition).2.encode) :=
  replace_bind h fun c => .ok (c.delete condition)

end OnFile

/-- Contents with a column that pass their check are read back from the file they are put in. -/
theorem read_withFile {c : Contents} (hfits : root.fits (tableFile t.name) = true)
    (hcolumns : c.schema.columns ≠ []) (hcheck : c.check = .ok ()) :
    t.schema (root.withFile (tableFile t.name) c.encode) = .ok c.schema ∧
      t.contents (root.withFile (tableFile t.name) c.encode) = .ok c := by
  rw [schema_eq (Root.file?_withFile hfits), contents_eq (Root.file?_withFile hfits)]
  exact ⟨Contents.decodeSchema_encode _ hcolumns hcheck, Contents.decode_encode _ hcolumns hcheck⟩

section OnContents

variable {c new : Contents} (h : t.contents root = .ok c)
include h

theorem exists_file_of_contents : ∃ bytes, root.file? (tableFile t.name) = some bytes ∧
    Contents.decode (t.path root) bytes = .ok c := by
  obtain ⟨bytes, hbytes, hread⟩ := Outcome.bind_eq_ok.mp h
  exact ⟨bytes, bytes_eq_ok.mp hbytes, hread⟩

theorem length_of_contents : ∀ row ∈ c.rows, row.length = c.schema.width := by
  obtain ⟨bytes, -, hread⟩ := exists_file_of_contents h
  exact Contents.length_of_decode hread

theorem columns_of_contents : c.schema.columns ≠ [] := by
  obtain ⟨bytes, -, hread⟩ := exists_file_of_contents h
  obtain ⟨text, rfl⟩ := Contents.exists_of_decode hread
  exact (Contents.decode_eq_ok.mp hread).1

theorem select_of_contents (columns : List String) (condition : Option Condition)
    (order : Option String) :
    t.select root columns condition order = c.select columns condition order := by
  unfold select
  rw [h]
  rfl

theorem update_eq_ok {assignments : List (String × String)} {condition : Option Condition}
    {count : Nat} {after : Root} : t.update root assignments condition = .ok (count, after) ↔
      ∃ new, c.update assignments condition = .ok (count, new) ∧ new.check = .ok () ∧
        root.withFile (tableFile t.name) new.encode = after := by
  obtain ⟨bytes, hfile, hread⟩ := exists_file_of_contents h
  rw [update_eq hfile, hread]
  show (c.update assignments condition >>= fun p => _) = _ ↔ _
  simp only [Outcome.bind_eq_ok, Outcome.map_eq_ok, Prod.mk.injEq]
  constructor
  · rintro ⟨⟨_, new⟩, hnew, _, hcheck, rfl, rfl⟩
    exact ⟨new, hnew, hcheck, rfl⟩
  · rintro ⟨new, hnew, hcheck, rfl⟩
    exact ⟨(count, new), hnew, (), hcheck, rfl, rfl⟩

theorem delete_eq_ok {condition : Option Condition} {count : Nat} {after : Root} :
    t.delete root condition = .ok (count, after) ↔ (c.delete condition).2.check = .ok () ∧
      (c.delete condition).1 = count ∧
      root.withFile (tableFile t.name) (c.delete condition).2.encode = after := by
  obtain ⟨bytes, hfile, hread⟩ := exists_file_of_contents h
  rw [delete_eq hfile, hread]
  show (c.delete condition).2.check.map _ = _ ↔ _
  simp only [Outcome.map_eq_ok, Prod.mk.injEq]
  exact ⟨fun ⟨_, hcheck, hresult⟩ => ⟨hcheck, hresult⟩, fun ⟨hcheck, hresult⟩ =>
    ⟨(), hcheck, hresult⟩⟩

/-- Contents that are put in the place of others are read back. -/
theorem contents_withFile (hcolumns : new.schema.columns ≠ []) (hcheck : new.check = .ok ()) :
    t.contents (root.withFile (tableFile t.name) new.encode) = .ok new := by
  obtain ⟨bytes, hfile, -⟩ := exists_file_of_contents h
  exact (read_withFile (Root.file?_eq_some.mp hfile).1 hcolumns hcheck).2

end OnContents

/-- What was written is read back, whatever the fields are; a file that was read is
written again byte for byte, unless it has carriage returns or an unended line. -/
theorem replace_contents_inverse (t : Table) (root : Root) :
    (∀ (names : List String) (types : List ColumnType) (s : Schema) (rows : List Row),
      root.Writable (tableFile t.name) → names ≠ [] → Schema.ofTypes names types = .ok s →
      s.names = names ∧ s.types = types ∧
      ((∃ after, t.replace root ⟨s, rows⟩ = .ok after) ↔
        ∀ row ∈ rows, row.length = names.length ∧ ∀ value ∈ row, isStorable value = true) ∧
      ∀ after, t.replace root ⟨s, rows⟩ = .ok after →
        t.contents after = .ok ⟨s, rows⟩ ∧ t.schema after = .ok s) ∧
    (∀ (text : String) (c : Contents), '\r' ∉ text.toList → text.toList.getLast? = some '\n' →
      root.file? (tableFile t.name) = some text.toUTF8 → t.contents root = .ok c →
      ∃ after, t.replace root c = .ok after ∧
        after.file? (tableFile t.name) = some text.toUTF8) := by
  constructor
  · intro names types s rows hw hne hs
    obtain ⟨rfl, rfl⟩ := Schema.ofTypes_eq_ok.mp hs
    have hcolumns : s.columns ≠ [] := mt Schema.names_eq_nil_iff.mpr hne
    refine ⟨rfl, rfl, ?_, ?_⟩
    · simp only [replace_eq_ok hw, exists_and_left, exists_eq', and_true, Contents.check_eq_ok,
        Schema.length_names]
    · intro after h
      obtain ⟨hc, rfl⟩ := (replace_eq_ok hw).mp h
      have hfile : (root.withFile (tableFile t.name) (Contents.encode ⟨s, rows⟩)).file?
          (tableFile t.name) = some (Contents.encode ⟨s, rows⟩) := Root.file?_withFile hw.fits
      rw [contents_eq hfile, schema_eq hfile]
      exact ⟨Contents.decode_encode _ hcolumns hc, Contents.decodeSchema_encode _ hcolumns hc⟩
  · intro text c hr hl hfile h
    have hw := Root.writable_of_file? hfile
    rw [contents_eq hfile] at h
    refine ⟨_, (replace_eq_ok hw).mpr ⟨Contents.check_of_decode hr h, rfl⟩, ?_⟩
    rw [Root.file?_withFile hw.fits, Contents.encode_of_decode hr hl h]

/-- Two rows of one empty field are two empty lines at the end of the file. -/
theorem replace_contents_inverse_empty_lines :
    let text := "a\nstring\n\n\n"
    let root : Root := ⟨"db", .directory (Directory.empty.put "t.csv" (.file text.toUTF8))⟩
    let c : Contents := ⟨⟨[⟨"a", .text⟩], by decide⟩, [[""], [""]]⟩
    Table.contents ⟨"t"⟩ root = .ok c ∧
      (∃ after, Table.replace ⟨"t"⟩ root c = .ok after ∧ Table.contents ⟨"t"⟩ after = .ok c ∧
        Table.schema ⟨"t"⟩ after = .ok c.schema) ∧
      ∃ after, Table.replace ⟨"t"⟩ root c = .ok after ∧ after.file? "t.csv" = some text.toUTF8 := by
  intro text root c
  have hfile : root.file? (tableFile "t") = some text.toUTF8 :=
    Root.file?_eq_some.mpr ⟨by decide, rfl⟩
  have hread : Table.contents ⟨"t"⟩ root = .ok c := by
    rw [contents_eq hfile]
    exact Contents.decode_eq_ok.mpr ⟨by decide, by decide, by decide⟩
  obtain ⟨writes, rewrites⟩ := replace_contents_inverse ⟨"t"⟩ root
  obtain ⟨-, -, accepts, reads⟩ :=
    writes ["a"] [.text] c.schema c.rows (Root.writable_of_file? hfile) (by decide) rfl
  obtain ⟨after, h⟩ := accepts.mpr (by decide)
  exact ⟨hread, ⟨after, h, reads after h⟩,
    rewrites text c (by decide) (by decide) hfile hread⟩

end Table

end TableStore
