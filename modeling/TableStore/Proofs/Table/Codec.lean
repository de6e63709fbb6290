import TableStore.Proofs.Table.Schema
import TableStore.Proofs.Text.Bytes

/-! Table files as a codec. A text is read exactly if its lines are those of the
contents; contents that pass their check are read back from their own file, and a
text without carriage returns whose last line is ended is written again as it was. -/
namespace TableStore.Contents

open TableStore.Text

theorem check_eq_ok {c : Contents} : c.check = .ok () ↔
    ∀ row ∈ c.rows, row.length = c.schema.width ∧ ∀ value ∈ row, isStorable value = true := by
  unfold check
  rw [Outcome.forM_eq_ok]
  apply forall₂_congr
  intro row hrow
  by_cases hlen : row.length = c.schema.width
  · have values : (c.schema.names.zip row).map Prod.snd = row := by
      apply List.map_snd_zip
      exact Nat.le_of_eq (hlen.trans c.schema.length_names.symm)
    rw [if_pos hlen, Outcome.forM_eq_ok]
    simp only [hlen, true_and]
    constructor
    · intro h value hv
      rw [← values] at hv
      obtain ⟨p, hp, rfl⟩ := List.mem_map.mp hv
      have hp := h p hp
      by_contra hs
      rw [if_neg hs] at hp
      cases hp
    · intro h p hp
      rw [if_pos (h p.2 (values ▸ List.mem_map_of_mem hp))]
  · rw [if_neg hlen]
    simp [hlen]

theorem decodeRows_eq_ok {path : String} {width number : Nat} {ls : List (List Char)}
    {rows : List Row} : decodeRows path width number ls = .ok rows ↔
      rows = ls.map lineFields ∧ ∀ row ∈ rows, row.length = width := by
  induction ls generalizing number rows with
  | nil =>
    simp only [decodeRows, Except.ok.injEq, List.map_nil]
    constructor
    · rintro rfl
      simp
    · intro h
      exact h.1.symm
  | cons line ls ih =>
    rw [decodeRows]
    constructor
    · intro h
      split at h
      · next hlen =>
        obtain ⟨rest, hrest, rfl⟩ := Outcome.map_eq_ok.mp h
        obtain ⟨rfl, hwidth⟩ := ih.mp hrest
        exact ⟨rfl, List.forall_mem_cons.mpr ⟨hlen, hwidth⟩⟩
      · cases h
    · rintro ⟨rfl, hwidth⟩
      rw [List.map_cons, List.forall_mem_cons] at hwidth
      rw [if_pos hwidth.1, Outcome.map_eq_ok]
      exact ⟨_, ih.mpr ⟨rfl, hwidth.2⟩, rfl⟩

theorem eq_map_lineFields_iff {rows : List Row} {ls : List (List Char)}
    (hne : ∀ row ∈ rows, row ≠ []) :
    rows = ls.map lineFields ↔
      ls = rows.map fieldLine ∧ ∀ row ∈ rows, ∀ value ∈ row, ',' ∉ value.toList := by
  constructor
  · rintro rfl
    constructor
    · simp [Function.comp_def]
    · intro row hrow value hv hm
      obtain ⟨line, -, rfl⟩ := List.mem_map.mp hrow
      exact (mem_of_mem_lineFields hv hm).2 rfl
  · rintro ⟨rfl, hcomma⟩
    rw [List.map_map]
    conv => lhs; rw [← List.map_id rows]
    apply List.map_congr_left
    intro row hrow
    exact (lineFields_fieldLine (hne row hrow) (hcomma row hrow)).symm

/-- Reading accepts a text exactly if its lines are the lines of what is read. -/
theorem decode_eq_ok {path text : String} {c : Contents} : decode path text.toUTF8 = .ok c ↔
    c.schema.columns ≠ [] ∧ lines text.toList = c.fileLines ∧
      ∀ row ∈ c.rows, row.length = c.schema.width ∧ ∀ value ∈ row, ',' ∉ value.toList := by
  have nonempty : c.schema.columns ≠ [] → (∀ row ∈ c.rows, row.length = c.schema.width) →
      ∀ row ∈ c.rows, row ≠ [] := by
    rintro hne hwidth row hrow rfl
    exact hne (List.length_eq_zero_iff.mp (hwidth _ hrow).symm)
  unfold decode
  rw [decodeText_toUTF8, Outcome.bind_eq_ok]
  simp only [Except.ok.injEq, exists_eq_left']
  constructor
  · intro h
    split at h
    · next header types rest hls =>
      obtain ⟨s, hs, h⟩ := Outcome.bind_eq_ok.mp h
      obtain ⟨rows, hrows, h⟩ := Outcome.bind_eq_ok.mp h
      obtain rfl := Outcome.pure_eq_ok.mp h
      obtain ⟨hne, rfl, rfl⟩ := Schema.ofLines_eq_ok.mp hs
      obtain ⟨hrest, hwidth⟩ := decodeRows_eq_ok.mp hrows
      obtain ⟨rfl, hcomma⟩ := (eq_map_lineFields_iff (nonempty hne hwidth)).mp hrest
      exact ⟨hne, hls, fun row hrow => ⟨hwidth row hrow, hcomma row hrow⟩⟩
    · cases h
  · rintro ⟨hne, hls, hrows⟩
    have hwidth := fun row hrow => (hrows row hrow).1
    have hrest := (eq_map_lineFields_iff (nonempty hne hwidth)).mpr
      ⟨rfl, fun row hrow => (hrows row hrow).2⟩
    rw [hls, fileLines]
    simp only [Outcome.bind_eq_ok, Outcome.pure_eq_ok]
    exact ⟨c.schema, Schema.ofLines_eq_ok.mpr ⟨hne, rfl, rfl⟩, c.rows,
      decodeRows_eq_ok.mpr ⟨hrest, hwidth⟩, rfl⟩

/-- Nothing in contents that pass their check ends a line early. -/
theorem not_mem_fileLines {c : Contents} (hc : c.check = .ok ()) :
    ∀ line ∈ c.fileLines, '\n' ∉ line ∧ '\r' ∉ line := by
  have storable : ∀ fields : List String, (∀ f ∈ fields, isStorable f = true) →
      '\n' ∉ fieldLine fields ∧ '\r' ∉ fieldLine fields := by
    intro fields h
    have h := fun f hf => isStorable_iff.mp (h f hf)
    exact ⟨not_mem_fieldLine (by decide) fun f hf => (h f hf).2.1,
      not_mem_fieldLine (by decide) fun f hf => (h f hf).2.2⟩
  intro line hline
  simp only [fileLines, List.mem_cons] at hline
  rcases hline with rfl | rfl | hline
  · exact storable _ fun f hf => Schema.isStorable_of_mem_names hf
  · refine storable _ fun f hf => ?_
    obtain ⟨t, -, rfl⟩ := List.mem_map.mp hf
    exact t.isStorable_name
  · obtain ⟨row, hrow, rfl⟩ := List.mem_map.mp hline
    exact storable row (check_eq_ok.mp hc row hrow).2

theorem encode_eq (c : Contents) :
    c.encode = (String.ofList (endLines '\n' c.fileLines)).toUTF8 := rfl

theorem decode_encode (path : String) {c : Contents} (hne : c.schema.columns ≠ [])
    (hc : c.check = .ok ()) : decode path c.encode = .ok c := by
  rw [encode_eq, decode_eq_ok]
  refine ⟨hne, ?_, fun row hrow => ?_⟩
  · rw [String.toList_ofList]
    exact linesBy_endLines (not_mem_fileLines hc)
  · obtain ⟨hlen, hv⟩ := check_eq_ok.mp hc row hrow
    exact ⟨hlen, fun value h => (isStorable_iff.mp (hv value h)).1⟩

theorem exists_of_decode {path : String} {bytes : ByteArray} {c : Contents}
    (h : decode path bytes = .ok c) : ∃ text : String, bytes = text.toUTF8 := by
  obtain ⟨cs, hcs, -⟩ := Outcome.bind_eq_ok.mp h
  unfold decodeText at hcs
  split at hcs
  · next text htext => exact ⟨text, fromUTF8?_eq_some.mp htext⟩
  · cases hcs

/-- The rows that a file gives are as wide as its schema. -/
theorem length_of_decode {path : String} {bytes : ByteArray} {c : Contents}
    (h : decode path bytes = .ok c) : ∀ row ∈ c.rows, row.length = c.schema.width := by
  obtain ⟨text, rfl⟩ := exists_of_decode h
  exact fun row hrow => ((decode_eq_ok.mp h).2.2 row hrow).1

/-- Reading a text is reading its schema, for which two lines are enough, and then the rows on
the lines after them. -/
theorem decode_eq_bind (path text : String) : decode path text.toUTF8 =
    decodeSchema path text.toUTF8 >>= fun s =>
      (decodeRows path s.width 1 ((lines text.toList).drop 2)).map (Contents.mk s) := by
  have hbytes : text.toUTF8.data.toList = textBytes text.toList := by
    rw [← toList_toUTF8_ofList, String.ofList_toList]
  unfold decode decodeSchema
  rw [decodeText_toUTF8, Outcome.ok_bind, hbytes, byteLines_textBytes]
  cases lines text.toList with
  | nil => rfl
  | cons header ls =>
    cases ls with
    | nil =>
      simp only [List.map_cons, List.map_nil, decodeText_textBytes, Outcome.ok_bind,
        Outcome.error_bind]
    | cons types rest =>
      simp only [List.map_cons, decodeText_textBytes, Outcome.ok_bind, List.drop_succ_cons,
        List.drop_zero]
      rfl

/-- What follows the first two lines is not even decoded for the schema. -/
theorem decodeSchema_of_decode {path : String} {bytes : ByteArray} {c : Contents}
    (h : decode path bytes = .ok c) : decodeSchema path bytes = .ok c.schema := by
  obtain ⟨text, rfl⟩ := exists_of_decode h
  rw [decode_eq_bind] at h
  obtain ⟨s, hs, h⟩ := Outcome.bind_eq_ok.mp h
  obtain ⟨rows, -, rfl⟩ := Outcome.map_eq_ok.mp h
  exact hs

theorem decodeSchema_encode (path : String) {c : Contents} (hne : c.schema.columns ≠ [])
    (hc : c.check = .ok ()) : decodeSchema path c.encode = .ok c.schema :=
  decodeSchema_of_decode (decode_encode path hne hc)

theorem check_of_decode {path text : String} {c : Contents} (hr : '\r' ∉ text.toList)
    (h : decode path text.toUTF8 = .ok c) : c.check = .ok () := by
  obtain ⟨-, hls, hrows⟩ := decode_eq_ok.mp h
  rw [check_eq_ok]
  intro row hrow
  refine ⟨(hrows row hrow).1, fun value hv => isStorable_iff.mpr ⟨(hrows row hrow).2 value hv, ?_⟩⟩
  have hline : fieldLine row ∈ lines text.toList := by
    rw [hls, fileLines]
    exact List.mem_cons_of_mem _ (List.mem_cons_of_mem _ (List.mem_map_of_mem hrow))
  have inText : ∀ a ∈ value.toList, a ∈ text.toList ∧ a ≠ '\n' := by
    intro a ha
    exact mem_of_mem_linesBy hline (mem_fieldLine hv ha)
  exact ⟨fun hm => (inText _ hm).2 rfl, fun hm => hr (inText _ hm).1⟩

theorem encode_of_decode {path text : String} {c : Contents} (hr : '\r' ∉ text.toList)
    (hl : text.toList.getLast? = some '\n') (h : decode path text.toUTF8 = .ok c) :
    c.encode = text.toUTF8 := by
  obtain ⟨-, hls, -⟩ := decode_eq_ok.mp h
  rw [encode_eq, ← hls, lines, endLines_linesBy hr (.inr hl), String.ofList_toList]

end TableStore.Contents
