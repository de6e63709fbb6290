import TableStore.Proofs.Table.Stored

/-! New tables. The two lines of a new file spell the schema that was declared, unless no column
was declared: two empty lines spell one column, of a type without a name. -/
namespace TableStore

open TableStore.Text TableStore.Sql

variable {s : Schema} {root after : Root} {name : String} {t : Table}

namespace Contents

/-- Two empty lines. -/
theorem encode_of_no_columns (h : s.columns = []) :
    encode ⟨s, []⟩ = (String.ofList ['\n', '\n']).toUTF8 := by
  obtain ⟨columns, named⟩ := s
  subst h
  rfl

theorem decode_of_no_columns (path : String) (h : s.columns = []) :
    decode path (encode ⟨s, []⟩) = .error (.unknownType "") := by
  unfold decode
  rw [encode_of_no_columns h, decodeText_toUTF8, Outcome.ok_bind, String.toList_ofList]
  rfl

theorem decodeSchema_of_no_columns (path : String) (h : s.columns = []) :
    decodeSchema path (encode ⟨s, []⟩) = .error (.unknownType "") := by
  unfold decodeSchema
  rw [encode_of_no_columns h, toList_toUTF8_ofList, byteLines_textBytes]
  show (decodeText ⟨(textBytes []).toArray⟩ >>= fun header => _) = _
  rw [decodeText_textBytes]
  rfl

end Contents

namespace Table

theorem create_eq_ok : create root name s = (.ok t, after) ↔ root.place ≠ .plainFile ∧
    isTableName name = true ∧ root.entry? (tableFile name) = none ∧
    root.fits (tableFile name) = true ∧ t = ⟨name⟩ ∧
    root.withFile (tableFile name) (Contents.encode ⟨s, []⟩) = after := by
  constructor
  · intro h
    have named : isTableName name = true := by
      by_contra hn
      unfold create Root.tablePath at h
      simp [hn] at h
    have place : root.place ≠ .plainFile := by
      intro hp
      unfold create at h
      rw [root.tablePath_of_isTableName named, Root.ensure_of_plainFile hp] at h
      cases h
    rw [create_eq place named] at h
    split at h
    · cases h
    · next free =>
      split at h
      · next fits =>
        cases h
        exact ⟨place, named, by simpa using free, fits, rfl, rfl⟩
      · cases h
  · rintro ⟨place, named, free, fits, rfl, rfl⟩
    rw [create_eq place named, free, if_pos fits]
    rfl

theorem find_withFile {content : ByteArray} (named : isTableName name = true)
    (fits : root.fits (tableFile name) = true) :
    find (root.withFile (tableFile name) content) name = .ok ⟨name⟩ := by
  rw [find_eq, if_pos named, Root.file?_withFile fits]
  rfl

/-- The first type name that is read from an empty line is empty. -/
theorem unreadable_of_no_columns (fits : root.fits (tableFile t.name) = true)
    (h : s.columns = []) :
    t.schema (root.withFile (tableFile t.name) (Contents.encode ⟨s, []⟩)) =
        .error (.unknownType "") ∧
      t.contents (root.withFile (tableFile t.name) (Contents.encode ⟨s, []⟩)) =
        .error (.unknownType "") := by
  rw [schema_eq (Root.file?_withFile fits), contents_eq (Root.file?_withFile fits)]
  exact ⟨Contents.decodeSchema_of_no_columns _ h, Contents.decode_of_no_columns _ h⟩

/-- A table that was made is found. Both readers find the declared schema in it, and no rows,
unless no column was declared: then neither of them reads it. -/
theorem created_readable_iff {columns types : List String}
    (hdeclare : Schema.declare columns types = .ok s)
    (hcreate : create root name s = (.ok t, after)) :
    find after name = .ok t ∧ s.names = columns ∧ s.types.map ColumnType.name = types ∧
      ((t.schema after = .ok s ∧ t.contents after = .ok ⟨s, []⟩) ↔ columns ≠ []) ∧
      (columns = [] → t.schema after = .error (.unknownType "") ∧
        t.contents after = .error (.unknownType "")) := by
  obtain ⟨-, named, -, fits, rfl, rfl⟩ := create_eq_ok.mp hcreate
  obtain ⟨rfl, rfl⟩ := Schema.declare_eq_ok.mp hdeclare
  have unreadable (hnone : s.names = []) :=
    unreadable_of_no_columns (t := ⟨name⟩) fits (Schema.names_eq_nil_iff.mp hnone)
  refine ⟨find_withFile named fits, rfl, rfl, ⟨?_, ?_⟩, unreadable⟩
  · rintro ⟨hschema, -⟩ hnone
    rw [(unreadable hnone).1] at hschema
    cases hschema
  · intro hne
    have hcolumns : s.columns ≠ [] := mt Schema.names_eq_nil_iff.mpr hne
    have hcheck : Contents.check ⟨s, []⟩ = .ok () := Contents.check_eq_ok.mpr nofun
    exact read_withFile fits hcolumns hcheck

/-- A root without a directory yet, a column whose name is taken twice, and one named by a star. -/
theorem created_readable_iff_names :
    let root : Root := ⟨"db", .nothing⟩
    let s : Schema := ⟨[⟨"a b", .int64⟩, ⟨"*", .text⟩, ⟨"a b", .text⟩], by decide⟩
    Schema.declare ["a b", "*", "a b"] ["int64", "string", "string"] = .ok s ∧
      ∃ after, create root "t_1" s = (.ok ⟨"t_1"⟩, after) ∧ find after "t_1" = .ok ⟨"t_1"⟩ ∧
        schema ⟨"t_1"⟩ after = .ok s ∧ contents ⟨"t_1"⟩ after = .ok ⟨s, []⟩ := by
  intro root s
  have declared : Schema.declare ["a b", "*", "a b"] ["int64", "string", "string"] = .ok s :=
    Schema.declare_eq_ok.mpr ⟨rfl, rfl⟩
  have created : create root "t_1" s =
      (.ok ⟨"t_1"⟩, root.withFile (tableFile "t_1") (Contents.encode ⟨s, []⟩)) :=
    create_eq_ok.mpr ⟨by simp [root], by decide, rfl, by decide, rfl, rfl⟩
  obtain ⟨found, -, -, readable, -⟩ := created_readable_iff declared created
  exact ⟨declared, _, created, found, readable.mpr (by decide)⟩

/-- A declaration of no columns is accepted, the table is made and found, and nothing can read
it. -/
theorem create_no_columns_unreadable :
    let root : Root := ⟨"db", .nothing⟩
    ∃ s after, isTableName "t" = true ∧ Schema.declare [] [] = .ok s ∧
      create root "t" s = (.ok ⟨"t"⟩, after) ∧ find after "t" = .ok ⟨"t"⟩ ∧
      schema ⟨"t"⟩ after = .error (.unknownType "") ∧
      contents ⟨"t"⟩ after = .error (.unknownType "") := by
  intro root
  let s : Schema := ⟨[], nofun⟩
  have fits : root.fits (tableFile "t") = true := by decide
  exact ⟨s, _, by decide, rfl, create_eq_ok.mpr ⟨by simp [root], by decide, rfl, fits, rfl, rfl⟩,
    find_withFile (by decide) fits, unreadable_of_no_columns (t := ⟨"t"⟩) fits rfl⟩

end Table

end TableStore
