import TableStore.Transaction
import TableStore.Proofs.Command.Run

/-! The journal of a commit. As long as it covers what has changed since the start,
undoing it brings every entry of the root back, whatever happened in between. -/
namespace TableStore

open TableStore.Text TableStore.Sql

/-- What there is to note about the file of a table. -/
def Root.peek (r : Root) (table : String) : Except Fault (Option ByteArray) := do
  let _ ← r.tablePath table
  match r.readFile (tableFile table) with
  | .ok content => return some content
  | .error .missing => return none
  | .error fault => .error (.disk fault)

theorem tableFile_injective : Function.Injective tableFile := by
  intro a b h
  have hl : (tableFile a).toList = (tableFile b).toList := by rw [h]
  simp only [tableFile, String.toList_append] at hl
  apply String.toList_inj.mp
  exact List.append_cancel_right (List.append_cancel_right hl)

namespace Journal

/-- A file can be restored to a content: it can be written, or there is to be no file,
and there is no directory in which it could be. -/
def Restorable (now : Root) (table : String) (content : Option ByteArray) : Prop :=
  now.Writable (tableFile table) ∨ content = none ∧ now.place = .nothing

variable {start now : Root} {j : Journal} {table : String} {content : Option ByteArray}

theorem of_peek_eq_ok (h : now.peek table = .ok content) : isTableName table = true ∧
    now.holds? (tableFile table) = content.map .file ∧ Restorable now table content := by
  unfold Root.peek at h
  obtain ⟨path, hpath, h⟩ := Outcome.bind_eq_ok.mp h
  refine ⟨(Root.tablePath_eq_ok.mp hpath).1, ?_⟩
  split at h
  · next bytes hr =>
    cases h
    have hb := Root.readFile_eq_ok.mp hr
    exact ⟨(Root.file?_eq_some.mp hb).2, .inl (Root.writable_of_file? hb)⟩
  · next hr =>
    cases h
    rcases Root.readFile_eq_missing.mp hr with hp | ⟨hp, hf, hn⟩
    · exact ⟨Root.holds?_of_nothing hp, .inr ⟨rfl, hp⟩⟩
    · refine ⟨hn, .inl ⟨hp, hf, ?_⟩⟩
      rw [hn]
      nofun
  · cases h

theorem note_eq (j : Journal) (root : Root) (table : String) : j.note root table =
    if (j.lookup table).isSome then .ok j
    else (root.peek table).map fun content => j ++ [(table, content)] := by
  unfold note Root.peek
  split
  · rfl
  · cases root.tablePath table with
    | error fault => rfl
    | ok path =>
      simp only [Outcome.ok_bind]
      cases root.readFile (tableFile table) with
      | ok bytes => rfl
      | error fault => cases fault <;> rfl

/-- What has changed since the start is noted, with what was there at the start. -/
structure Covers (start now : Root) (j : Journal) : Prop where
  path : now.path = start.path
  plain : now.place = .plainFile ↔ start.place = .plainFile
  others : ∀ file, (∀ e ∈ j, file ≠ tableFile e.1) → now.holds? file = start.holds? file
  named : ∀ e ∈ j, isTableName e.1 = true
  noted : ∀ e ∈ j, start.holds? (tableFile e.1) = e.2.map .file
  restorable : ∀ e ∈ j, Restorable now e.1 e.2

theorem covers_nil (root : Root) : Covers root root [] :=
  ⟨rfl, Iff.rfl, fun _ _ => rfl, nofun, nofun, nofun⟩

theorem Covers.sameEntries (h : Covers start now []) : now.SameEntries start :=
  ⟨h.path, h.plain, fun file => h.others file nofun⟩

/-- Noting a table that is noted already changes nothing; else the note says what the
file held at the start, since no noted table has the same file. -/
theorem Covers.note {j' : Journal} (h : Covers start now j) (hj : j.note now table = .ok j') :
    Covers start now j' ∧ (∃ content, (table, content) ∈ j') ∧
      ∀ e ∈ j', e ∈ j ∨ e.1 = table := by
  rw [note_eq] at hj
  split at hj
  · next hs =>
    cases hj
    obtain ⟨content, hc⟩ := Option.isSome_iff_exists.mp hs
    obtain ⟨l, l', hl, -⟩ := List.lookup_eq_some_iff.mp hc
    exact ⟨h, ⟨content, by simp [hl]⟩, fun e he => .inl he⟩
  · next hs =>
    obtain ⟨content, hpeek, rfl⟩ := Outcome.map_eq_ok.mp hj
    obtain ⟨hn, hh, hr⟩ := of_peek_eq_ok hpeek
    have fresh : ∀ e ∈ j, tableFile table ≠ tableFile e.1 := by
      intro e he heq
      apply hs
      rw [Option.isSome_iff_ne_none, ne_eq, List.lookup_eq_none_iff]
      intro hnone
      have := hnone e he
      rw [tableFile_injective heq] at this
      simp at this
    -- No noted table has this file, so it is still what it was at the start.
    have held : start.holds? (tableFile table) = content.map .file := by
      rw [← h.others _ fresh, hh]
    refine ⟨⟨h.path, h.plain, ?_, ?_, ?_, ?_⟩, ⟨content, by simp⟩, ?_⟩
    · intro file hfile
      exact h.others file fun e he => hfile e (List.mem_append_left _ he)
    all_goals
      intro e he
      rcases List.mem_append.mp he with he | he
    · exact h.named e he
    · cases List.mem_singleton.mp he
      exact hn
    · exact h.noted e he
    · cases List.mem_singleton.mp he
      exact held
    · exact h.restorable e he
    · cases List.mem_singleton.mp he
      exact hr
    · exact .inl he
    · cases List.mem_singleton.mp he
      exact .inr rfl

theorem isSome_lookup_note {j' : Journal} (hj : j.note now table = .ok j') (other : String) :
    (j'.lookup other).isSome = true ↔ other = table ∨ (j.lookup other).isSome = true := by
  rw [note_eq] at hj
  split at hj
  · next hs =>
    cases hj
    constructor
    · exact .inr
    · rintro (rfl | h)
      · exact hs
      · exact h
  · obtain ⟨content, -, rfl⟩ := Outcome.map_eq_ok.mp hj
    rw [List.lookup_append, Option.isSome_or, Bool.or_eq_true, or_comm]
    by_cases ho : other = table
    · simp [ho]
    · simp [List.lookup_cons, beq_eq_false_iff_ne.mpr ho, ho]

/-- Restoring a file that can be restored changes that file alone, and every other file
can still be restored. -/
theorem restore_spec (hn : isTableName table = true) (hr : Restorable now table content) :
    ∃ after, restore now table content = .ok after ∧ after.path = now.path ∧
      (after.place = .plainFile ↔ now.place = .plainFile) ∧
      (∀ file, after.holds? file =
        if file = tableFile table then content.map .file else now.holds? file) ∧
      ∀ t c, Restorable now t c → Restorable after t c := by
  -- A file that is to be missing, and is, needs no change of the root.
  have unchanged (hfree : now.holds? (tableFile table) = none) (file : String) :
      now.holds? file = if file = tableFile table then none else now.holds? file := by
    split
    · next heq => rw [heq, hfree]
    · rfl
  have writable (directory : now.place = .directory now.directory) {t : String}
      {c : Option ByteArray} (h : Restorable now t c) : now.Writable (tableFile t) := by
    rcases h with h | ⟨-, h⟩
    · exact h
    · rw [h] at directory
      cases directory
  unfold restore
  rw [now.tablePath_of_isTableName hn]
  rcases hr with hw | ⟨rfl, hp⟩
  · have plain : now.place ≠ .plainFile := by
      rw [hw.place]
      nofun
    cases content with
    | some bytes =>
      simp only [Outcome.ok_bind, hw.writeFile]
      refine ⟨_, rfl, Root.path_withFile, ?_, fun file => Root.holds?_withFile, ?_⟩
      · simp [Root.withFile, plain]
      · exact fun t c h => .inl (writable hw.place h).withFile
    | none =>
      rcases Root.removeFile_cases hw.place hw.fits hw.free with hr | ⟨hr, hfree⟩
      · simp only [Outcome.ok_bind, hr]
        refine ⟨_, rfl, Root.path_without, ?_, fun file => Root.holds?_without, ?_⟩
        · simp [Root.without, plain]
        · exact fun t c h => .inl (writable hw.place h).without
      · simp only [Outcome.ok_bind, hr]
        exact ⟨now, rfl, rfl, Iff.rfl, unchanged hfree, fun t c h => h⟩
  · simp only [Outcome.ok_bind, Root.removeFile_of_nothing hp]
    exact ⟨now, rfl, rfl, Iff.rfl, unchanged (Root.holds?_of_nothing hp), fun t c h => h⟩

/-- Restoring the first entry leaves the rest of the journal to cover what is changed. -/
theorem Covers.restore (h : Covers start now ((table, content) :: j)) :
    ∃ after, Journal.restore now table content = .ok after ∧ Covers start after j := by
  obtain ⟨hfirst, hrest⟩ := List.forall_mem_cons.mp h.restorable
  obtain ⟨after, hr, hpath, hplain, hholds, hkeep⟩ :=
    restore_spec (h.named _ List.mem_cons_self) hfirst
  refine ⟨after, hr, hpath.trans h.path, hplain.trans h.plain, ?_, ?_, ?_, ?_⟩
  · intro file hfile
    rw [hholds]
    split
    · next heq =>
      subst heq
      exact (h.noted _ List.mem_cons_self).symm
    · next hne =>
      exact h.others file (List.forall_mem_cons.mpr ⟨hne, hfile⟩)
  · exact fun e he => h.named e (List.mem_cons_of_mem _ he)
  · exact fun e he => h.noted e (List.mem_cons_of_mem _ he)
  · exact fun e he => hkeep e.1 e.2 (hrest e he)

theorem Covers.restoreAll (h : Covers start now j) :
    ∃ after, restoreAll now j = (none, after) ∧ after.SameEntries start := by
  induction j generalizing now with
  | nil => exact ⟨now, rfl, h.sameEntries⟩
  | cons e j ih =>
    obtain ⟨table, content⟩ := e
    obtain ⟨next, hnext, hc⟩ := h.restore
    obtain ⟨after, hafter, hs⟩ := ih hc
    refine ⟨after, ?_, hs⟩
    unfold Journal.restoreAll
    rw [hnext]
    exact hafter

/-- Undoing a covering journal reports the cause as it is. -/
theorem Covers.undo (h : Covers start now j) (cause : Fault) :
    ∃ after, undo j now cause = (cause, after) ∧ after.SameEntries start := by
  obtain ⟨after, hr, hs⟩ := h.restoreAll
  refine ⟨after, ?_, hs⟩
  unfold Journal.undo
  rw [hr]

end Journal

end TableStore
