import TableStore.Proofs.Table.Stored

/-! The two readers of a table file, one for the schema and one for everything. Whatever bytes
the file holds, they find the same schema or the same fault, up to the first line that is no row
or the first byte that is no text. -/
namespace TableStore

open TableStore.Text

/-- The fault lies in a line after the types that is no row. -/
def IsRowFault (path : String) (fault : Fault) : Prop :=
  ∃ number found width, fault = wrongWidth path number found width

theorem not_isRowFault_missingLine (path : String) : ¬IsRowFault path (missingLine path) := by
  rintro ⟨number, found, width, h⟩
  have htext := congrArg String.toList (Fault.damagedTable.inj h)
  simp at htext

theorem not_isRowFault_of_ofDeclaration {path : String} {fault : Fault}
    (h : fault.ofDeclaration = true) : ¬IsRowFault path fault := by
  rintro ⟨number, found, width, rfl⟩
  cases h

namespace Contents

variable {path : String} {bytes : ByteArray} {fault : Fault}

/-- The first line whose fields are not as many as the columns is at fault. -/
theorem decodeRows_eq_error {width number : Nat} {ls : List (List Char)} :
    decodeRows path width number ls = .error fault ↔ ∃ i line, ls[i]? = some line ∧
      (∀ l ∈ ls.take i, (lineFields l).length = width) ∧ (lineFields line).length ≠ width ∧
      fault = wrongWidth path (number + i) (lineFields line).length width := by
  induction ls generalizing number with
  | nil => simp [decodeRows]
  | cons first ls ih =>
    rw [decodeRows]
    constructor
    · intro h
      split at h
      · next hwidth =>
        obtain ⟨i, line, hi, hbefore, hline, rfl⟩ := ih.mp (Outcome.map_eq_error.mp h)
        refine ⟨i + 1, line, hi, ?_, hline, ?_⟩
        · exact List.forall_mem_cons.mpr ⟨hwidth, hbefore⟩
        · rw [Nat.add_assoc, Nat.add_comm 1]
      · next hwidth =>
        cases h
        exact ⟨0, first, rfl, List.forall_mem_nil _, hwidth, rfl⟩
    · rintro ⟨i, line, hi, hbefore, hline, rfl⟩
      cases i with
      | zero =>
        obtain rfl := Option.some.inj hi
        exact if_neg hline
      | succ i =>
        obtain ⟨hwidth, hbefore⟩ := List.forall_mem_cons.mp hbefore
        rw [if_pos hwidth, Outcome.map_eq_error]
        refine ih.mpr ⟨i, line, hi, hbefore, hline, ?_⟩
        rw [Nat.add_assoc, Nat.add_comm 1]

/-- A schema is refused for its encoding, for a line that is missing or for what it declares. -/
theorem decodeSchema_refused (path : String) (bytes : ByteArray) :
    Outcome.FailsIn (fun fault => fault = .disk .notUtf8 ∨ fault = missingLine path ∨
      fault.ofDeclaration = true) (decodeSchema path bytes) := by
  have text (bytes : ByteArray) : Outcome.FailsIn (fun fault => fault = .disk .notUtf8 ∨
      fault = missingLine path ∨ fault.ofDeclaration = true) (decodeText bytes) :=
    fun fault h => .inl (decodeText_eq_error.mp h).2
  unfold decodeSchema
  split
  · refine .bind (text _) fun header => .bind (text _) fun types => fun fault h => ?_
    exact .inr (.inr (Schema.declare_refused _ _ fault h))
  · exact .bind (text _) fun _ => .error (.inr (.inl rfl))
  · exact .error (.inr (.inl rfl))

theorem not_isRowFault_of_decodeSchema (h : decodeSchema path bytes = .error fault) :
    ¬IsRowFault path fault := by
  rcases decodeSchema_refused path bytes fault h with rfl | rfl | hdeclared
  · rintro ⟨number, found, width, h⟩
    cases h
  · exact not_isRowFault_missingLine path
  · exact not_isRowFault_of_ofDeclaration hdeclared

/-- A file is refused for its encoding by the reader of the schema exactly if one of the two
lines that it reads is no text. -/
theorem decodeSchema_eq_notUtf8 : decodeSchema path bytes = .error (.disk .notUtf8) ↔
    ∃ line ∈ (byteLines bytes.data.toList).take 2, String.fromUTF8? ⟨line.toArray⟩ = none := by
  have declared (header types : List Char) :
      Schema.ofLines header types ≠ .error (.disk .notUtf8) := by
    intro h
    cases Schema.declare_refused _ _ _ h
  have missing : (Except.error (missingLine path) : Except Fault Schema) ≠
      .error (.disk .notUtf8) := nofun
  unfold decodeSchema
  cases byteLines bytes.data.toList with
  | nil => simp [missing]
  | cons header ls =>
    cases ls with
    | nil => simp [Outcome.bind_eq_error, decodeText_eq_error, missing]
    | cons types rest =>
      simp only [Outcome.bind_eq_error, decodeText_eq_error, declared, and_true, and_false,
        exists_const, or_false, exists_and_right, exists_decodeText]
      by_cases hheader : String.fromUTF8? ⟨header.toArray⟩ = none <;> simp [hheader]

theorem decode_eq_notUtf8 (h : String.fromUTF8? bytes = none) :
    decode path bytes = .error (.disk .notUtf8) := by
  unfold decode
  rw [decodeText_eq_error.mpr ⟨h, rfl⟩, Outcome.error_bind]

end Contents

namespace Table

/-- The reader of the schema and the reader of everything agree on every file: in a text they
find the same schema, or the same fault before any row; and what is no text is refused as such,
by the reader of the schema only if that is in its two lines. -/
theorem schema_contents_agree (t : Table) (root : Root) (bytes : ByteArray)
    (hfile : root.file? (tableFile t.name) = some bytes) :
    (∀ text, String.fromUTF8? bytes = some text →
      (∀ fault, t.schema root = .error fault ↔
        t.contents root = .error fault ∧ ¬IsRowFault (t.path root) fault) ∧
      ∀ s, t.schema root = .ok s →
        t.contents root = .ok ⟨s, ((lines text.toList).drop 2).map lineFields⟩ ∨
        ∃ i line, (lines text.toList)[i + 2]? = some line ∧ (lineFields line).length ≠ s.width ∧
          t.contents root =
            .error (wrongWidth (t.path root) (i + 1) (lineFields line).length s.width)) ∧
    (String.fromUTF8? bytes = none → t.contents root = .error (.disk .notUtf8)) ∧
    (t.schema root = .error (.disk .notUtf8) ↔
      ∃ line ∈ (byteLines bytes.data.toList).take 2, String.fromUTF8? ⟨line.toArray⟩ = none) ∧
    ∀ c, t.contents root = .ok c → t.schema root = .ok c.schema := by
  rw [schema_eq hfile, contents_eq hfile]
  refine ⟨fun text htext => ?_, Contents.decode_eq_notUtf8, Contents.decodeSchema_eq_notUtf8,
    fun c => Contents.decodeSchema_of_decode⟩
  obtain rfl := fromUTF8?_eq_some.mp htext
  rw [Contents.decode_eq_bind]
  constructor
  · intro fault
    constructor
    · intro h
      rw [h]
      exact ⟨rfl, Contents.not_isRowFault_of_decodeSchema h⟩
    · rintro ⟨h, hrow⟩
      rcases Outcome.bind_eq_error.mp h with h | ⟨s, -, h⟩
      · exact h
      · obtain ⟨i, line, -, -, -, rfl⟩ :=
          Contents.decodeRows_eq_error.mp (Outcome.map_eq_error.mp h)
        exact absurd ⟨_, _, _, rfl⟩ hrow
  · intro s hs
    rw [hs, Outcome.ok_bind]
    cases hrows : Contents.decodeRows (t.path root) s.width 1 ((lines text.toList).drop 2) with
    | ok rows =>
      obtain ⟨rfl, -⟩ := Contents.decodeRows_eq_ok.mp hrows
      exact .inl rfl
    | error fault =>
      obtain ⟨i, line, hi, -, hwidth, rfl⟩ := Contents.decodeRows_eq_error.mp hrows
      rw [List.getElem?_drop, Nat.add_comm] at hi
      refine .inr ⟨i, line, hi, hwidth, ?_⟩
      rw [Nat.add_comm]
      rfl

/-- An empty line is a row of one empty field; the unended line after it has two fields, and its
carriage return is no end of a line. -/
theorem schema_contents_agree_lineEnds :
    let text := "a\r\nint64\n\r\nx,y\r"
    let root : Root := ⟨"db", .directory (Directory.empty.put "t.csv" (.file text.toUTF8))⟩
    let s : Schema := ⟨[⟨"a", .int64⟩], by decide⟩
    root.file? (tableFile "t") = some text.toUTF8 ∧ Table.schema ⟨"t"⟩ root = .ok s ∧
      Table.contents ⟨"t"⟩ root = .error (wrongWidth "db/t.csv" 2 2 1) := by
  intro text root s
  have hfile : root.file? (tableFile "t") = some text.toUTF8 :=
    Root.file?_eq_some.mpr ⟨by decide, rfl⟩
  have hschema : Table.schema ⟨"t"⟩ root = .ok s := Outcome.toOption_eq_some.mp (by decide +kernel)
  obtain ⟨agrees, -⟩ := schema_contents_agree ⟨"t"⟩ root text.toUTF8 hfile
  have hlines : lines text.toList = [['a'], "int64".toList, [], "x,y\r".toList] := by decide
  have hagree := (agrees text (fromUTF8?_toUTF8 text)).2 s hschema
  rw [hlines] at hagree
  rcases hagree with h | ⟨i, line, hi, hwidth, h⟩
  · cases length_of_contents h ["x", "y\r"] (by decide)
  · rcases i with _ | _ | i
    · obtain rfl := Option.some.inj hi
      exact absurd rfl hwidth
    · obtain rfl := Option.some.inj hi
      exact ⟨hfile, hschema, h.trans (congrArg Except.error (by decide))⟩
    · cases hi

end Table

end TableStore
