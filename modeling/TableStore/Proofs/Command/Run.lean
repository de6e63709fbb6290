import TableStore.Proofs.Command.Effect

/-! Runs of single commands. A command changes one file at most, what it does depends
on that file alone, and a command that fails changes nothing. -/
namespace TableStore

open TableStore.Text TableStore.Sql

namespace Root

variable {r s : Root} {name other : String} {written : Option ByteArray}

@[simp] theorem path_overwritten : (r.overwritten name written).path = r.path := by
  cases written <;> rfl

theorem holds?_overwritten_of_ne (h : other ≠ name) :
    (r.overwritten name written).holds? other = r.holds? other := by
  cases written with
  | none => rfl
  | some content =>
    show (r.withFile name content).holds? other = r.holds? other
    rw [holds?_withFile, if_neg h]

theorem sameEntries_made (h : r.place ≠ .plainFile) : r.made.SameEntries r :=
  ⟨rfl, by simp [made, h], fun _ => rfl⟩

theorem AgreeOn.overwritten {names : String → Prop} (h : AgreeOn names r s) (name : String)
    (written : Option ByteArray) :
    AgreeOn names (r.overwritten name written) (s.overwritten name written) := by
  cases written with
  | none => exact h
  | some content =>
    refine ⟨h.path, by simp [Root.overwritten, withFile], fun other hother => ?_⟩
    show (r.withFile name content).holds? other = (s.withFile name content).holds? other
    rw [holds?_withFile, holds?_withFile, h.entries other hother]

theorem checkNew_congr (h : r.path = s.path) (hp : r.place = .plainFile ↔ s.place = .plainFile)
    {table : String} (hn : r.holds? (tableFile table) = s.holds? (tableFile table)) :
    r.checkNew table = s.checkNew table := by
  unfold checkNew tablePath
  rw [entry?_eq, entry?_eq, fits_congr h, hn, h]
  rcases s.place_cases with hs | hs | hs
  · rw [hp.mpr hs, hs]
  all_goals
    have hr : r.place ≠ .plainFile := by
      rw [ne_eq, hp, hs]
      nofun
    rcases r.place_cases with hr' | hr' | hr'
    · exact absurd hr' hr
    all_goals rw [hr', hs]

theorem onTable_congr (h : r.path = s.path) {table : String}
    (hn : r.holds? (tableFile table) = s.holds? (tableFile table))
    (f : String → ByteArray → Except Fault α) : r.onTable table f = s.onTable table f := by
  unfold onTable tablePath
  rw [file?_congr h hn, h]

theorem checkNew_eq_ok {table : String} : r.checkNew table = .ok () ↔
    isTableName table = true ∧ r.place ≠ .plainFile ∧
      r.fits (tableFile table) = true ∧ r.holds? (tableFile table) = none := by
  unfold checkNew tablePath
  rw [entry?_eq]
  by_cases hn : isTableName table = true
  · by_cases hf : r.fits (tableFile table) = true
    · cases r.place <;> cases r.holds? (tableFile table) <;>
        simp [hn, hf, Outcome.ok_bind]
    · cases r.place <;> simp [hn, hf, Outcome.ok_bind]
  · simp [hn, Outcome.error_bind]

theorem onTable_eq_ok {table : String} {f : String → ByteArray → Except Fault α} {a : α} :
    r.onTable table f = .ok a ↔ isTableName table = true ∧ ∃ bytes,
      r.file? (tableFile table) = some bytes ∧
        f (joinPath r.path (tableFile table)) bytes = .ok a := by
  unfold onTable tablePath
  by_cases hn : isTableName table = true
  · cases r.file? (tableFile table) <;> simp [hn, Outcome.ok_bind]
  · simp [hn, Outcome.error_bind]

end Root

namespace Command

variable {root r s : Root} {c : Command} {answer : Answer} {written : Option ByteArray}

/-- What a command does depends on the path of the root and on the file of its table. -/
theorem effect_congr (h : r.path = s.path) (hp : r.place = .plainFile ↔ s.place = .plainFile)
    (hn : r.holds? (tableFile c.table) = s.holds? (tableFile c.table)) :
    c.effect r = c.effect s := by
  cases c with
  | create table columns types =>
    have hnew : r.checkNew table = s.checkNew table := Root.checkNew_congr h hp hn
    simp only [effect]
    rw [hnew]
  | insert => exact Root.onTable_congr h hn _
  | select => exact Root.onTable_congr h hn _
  | update => exact Root.onTable_congr h hn _
  | delete => exact Root.onTable_congr h hn _

/-- A command runs only on a table whose file can be written, and afterwards the root
has its directory. -/
structure Runnable (c : Command) (root : Root) (written : Option ByteArray) : Prop where
  named : isTableName c.table = true
  place : root.place ≠ .plainFile
  fits : root.fits (tableFile c.table) = true
  free : root.holds? (tableFile c.table) ≠ some .directory
  made : (root.overwritten (tableFile c.table) written).place =
    .directory (root.overwritten (tableFile c.table) written).directory

theorem runnable_of_file? (hn : isTableName c.table = true) {bytes : ByteArray}
    (h : root.file? (tableFile c.table) = some bytes) : c.Runnable root written := by
  have hw := Root.writable_of_file? h
  refine ⟨hn, ?_, hw.fits, hw.free, ?_⟩
  · rw [hw.place]
    nofun
  · cases written with
    | none => exact hw.place
    | some content => rfl

theorem runnable_of_effect (h : c.effect root = .ok (answer, written)) :
    c.Runnable root written := by
  have shared (f : String → ByteArray → Except Fault (Answer × Option ByteArray))
      (hf : root.onTable c.table f = .ok (answer, written)) : c.Runnable root written := by
    obtain ⟨hn, bytes, hb, -⟩ := Root.onTable_eq_ok.mp hf
    exact runnable_of_file? hn hb
  cases c with
  | create table columns types =>
    simp only [effect, Outcome.bind_eq_ok] at h
    obtain ⟨schema, -, _, hnew, h⟩ := h
    cases h
    obtain ⟨hn, hp, hf, hfree⟩ := Root.checkNew_eq_ok.mp hnew
    have free : root.holds? (tableFile table) ≠ some .directory := by
      simp [hfree]
    exact ⟨hn, hp, hf, free, rfl⟩
  | insert => exact shared _ h
  | select => exact shared _ h
  | update => exact shared _ h
  | delete => exact shared _ h

theorem run_of_effect_ok (h : c.effect root = .ok (answer, written)) :
    c.run root = (.ok answer, root.overwritten (tableFile c.table) written) := by
  have hl : ¬c.LeavesDirectory root := fun hl => by
    rw [(run_of_leavesDirectory hl).1] at h
    cases h
  rw [run_eq hl, h]
  rfl

theorem run_of_effect_error {fault : Fault} (h : c.effect root = .error fault) :
    c.run root = (.error fault, root) ∨
      c.LeavesDirectory root ∧ c.run root = (.error fault, root.made) := by
  by_cases hl : c.LeavesDirectory root
  · obtain ⟨he, hr⟩ := run_of_leavesDirectory hl
    rw [h] at he
    cases he
    exact .inr ⟨hl, hr⟩
  · rw [run_eq hl, h]
    exact .inl rfl

theorem run_eq_ok : (c.run root).1 = .ok answer ↔
    ∃ written, c.effect root = .ok (answer, written) := by
  constructor
  · intro h
    cases he : c.effect root with
    | ok p =>
      rw [run_of_effect_ok he] at h
      cases h
      exact ⟨p.2, rfl⟩
    | error fault =>
      rcases run_of_effect_error he with hr | ⟨-, hr⟩ <;> rw [hr] at h <;> cases h
  · rintro ⟨written, he⟩
    rw [run_of_effect_ok he]

theorem run_fst (root : Root) (c : Command) : (c.run root).1 = (c.effect root).map Prod.fst := by
  cases he : c.effect root with
  | ok p =>
    rw [run_of_effect_ok he]
    rfl
  | error fault => rcases run_of_effect_error he with hr | ⟨-, hr⟩ <;> rw [hr] <;> rfl

/-- A command that fails leaves every file as it was. -/
theorem sameEntries_of_run_error {fault : Fault} (h : (c.run root).1 = .error fault) :
    (c.run root).2.SameEntries root := by
  cases he : c.effect root with
  | ok p =>
    rw [run_of_effect_ok he] at h
    cases h
  | error fault =>
    rcases run_of_effect_error he with hr | ⟨hl, hr⟩
    · rw [hr]
      exact Root.SameEntries.refl root
    · rw [hr]
      refine Root.sameEntries_made ?_
      rw [hl.1]
      nofun

section AgreeOn

variable {names : String → Prop}

/-- A command answers the same, and does the same, on roots that agree on its table. -/
theorem agreeOn_run (h : Root.AgreeOn names r s) (hc : names (tableFile c.table)) :
    (c.run r).1 = (c.run s).1 ∧ Root.AgreeOn names (c.run r).2 (c.run s).2 := by
  have he : c.effect r = c.effect s := effect_congr h.path h.plain (h.entries _ hc)
  cases hs : c.effect s with
  | ok p =>
    rw [run_of_effect_ok (he.trans hs), run_of_effect_ok hs]
    exact ⟨rfl, h.overwritten _ _⟩
  | error fault =>
    have hr1 : (c.run r).1 = .error fault := by
      rw [run_fst, he, hs]
      rfl
    have hs1 : (c.run s).1 = .error fault := by
      rw [run_fst, hs]
      rfl
    refine ⟨hr1.trans hs1.symm, ?_⟩
    exact ((sameEntries_of_run_error hr1).agreeOn names).trans
      (h.trans ((sameEntries_of_run_error hs1).agreeOn names).symm)

theorem run_congr (h : r.SameEntries s) :
    (c.run r).1 = (c.run s).1 ∧ (c.run r).2.SameEntries (c.run s).2 :=
  (agreeOn_run (h.agreeOn _) trivial).imp_right Root.AgreeOn.sameEntries

/-- A command leaves every file but that of its table as it is. -/
theorem agreeOn_run_self (root : Root) (hc : ¬names (tableFile c.table)) :
    Root.AgreeOn names (c.run root).2 root := by
  cases he : c.effect root with
  | ok p =>
    have hr := runnable_of_effect he
    rw [run_of_effect_ok he]
    refine ⟨Root.path_overwritten, ?_, fun name hn => ?_⟩
    · simp [hr.made, hr.place]
    · exact Root.holds?_overwritten_of_ne fun heq => hc (heq ▸ hn)
  | error fault =>
    have failed : (c.run root).1 = .error fault := by
      rw [run_fst, he]
      rfl
    exact (sameEntries_of_run_error failed).agreeOn names

end AgreeOn

end Command

end TableStore
