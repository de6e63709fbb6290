import TableStore.Root

/-! What a root holds under each name. Two roots agree if they hold the same entries,
in whatever order these are listed, and whether or not a directory without entries
has been made yet. -/
namespace TableStore.Root

open TableStore.Text TableStore.Sql

/-- The directory of a root, empty as long as there is none. -/
def directory (r : Root) : Directory :=
  match r.place with
  | .directory d => d
  | _ => .empty

/-- What a name stands for, also a name that is too long to be reached. -/
def holds? (r : Root) (name : String) : Option Entry :=
  r.directory.find? name

def file? (r : Root) (name : String) : Option ByteArray :=
  match r.entry? name with
  | some (.file content) => some content
  | _ => none

def made (r : Root) : Root :=
  { r with place := .directory r.directory }

def withFile (r : Root) (name : String) (content : ByteArray) : Root :=
  { r with place := .directory (r.directory.put name (.file content)) }

def without (r : Root) (name : String) : Root :=
  { r with place := .directory (r.directory.erase name) }

/-- Two roots at one path that hold the same under every name. -/
structure SameEntries (r s : Root) : Prop where
  path : r.path = s.path
  plain : r.place = .plainFile ↔ s.place = .plainFile
  entries : ∀ name, r.holds? name = s.holds? name

theorem SameEntries.refl (r : Root) : r.SameEntries r :=
  ⟨rfl, Iff.rfl, fun _ => rfl⟩

theorem SameEntries.symm {r s : Root} (h : r.SameEntries s) : s.SameEntries r :=
  ⟨h.path.symm, h.plain.symm, fun name => (h.entries name).symm⟩

theorem SameEntries.trans {r s t : Root} (h : r.SameEntries s) (h' : s.SameEntries t) :
    r.SameEntries t :=
  ⟨h.path.trans h'.path, h.plain.trans h'.plain,
    fun name => (h.entries name).trans (h'.entries name)⟩

/-- Two roots at one path that hold the same under these names. -/
structure AgreeOn (names : String → Prop) (r s : Root) : Prop where
  path : r.path = s.path
  plain : r.place = .plainFile ↔ s.place = .plainFile
  entries : ∀ name, names name → r.holds? name = s.holds? name

namespace AgreeOn

variable {names : String → Prop} {r s t : Root}

theorem refl (names : String → Prop) (r : Root) : AgreeOn names r r :=
  ⟨rfl, Iff.rfl, fun _ _ => rfl⟩

theorem symm (h : AgreeOn names r s) : AgreeOn names s r :=
  ⟨h.path.symm, h.plain.symm, fun name hn => (h.entries name hn).symm⟩

theorem trans (h : AgreeOn names r s) (h' : AgreeOn names s t) : AgreeOn names r t :=
  ⟨h.path.trans h'.path, h.plain.trans h'.plain,
    fun name hn => (h.entries name hn).trans (h'.entries name hn)⟩

end AgreeOn

theorem SameEntries.agreeOn {r s : Root} (h : r.SameEntries s) (names : String → Prop) :
    AgreeOn names r s :=
  ⟨h.path, h.plain, fun name _ => h.entries name⟩

theorem AgreeOn.sameEntries {r s : Root} (h : AgreeOn (fun _ => True) r s) : r.SameEntries s :=
  ⟨h.path, h.plain, fun name => h.entries name trivial⟩

section Views

variable {r s : Root} {name other : String} {content : ByteArray}

@[simp] theorem path_made : r.made.path = r.path := rfl

@[simp] theorem path_withFile : (r.withFile name content).path = r.path := rfl

@[simp] theorem path_without : (r.without name).path = r.path := rfl

@[simp] theorem holds?_made : r.made.holds? name = r.holds? name := rfl

@[simp] theorem holds?_withFile : (r.withFile name content).holds? other =
    if other = name then some (.file content) else r.holds? other :=
  Directory.find?_put ..

@[simp] theorem holds?_without : (r.without name).holds? other =
    if other = name then none else r.holds? other :=
  Directory.find?_erase ..

/-- The file that was put last stays. -/
theorem withFile_withFile (r : Root) (name : String) (first content : ByteArray) :
    (r.withFile name first).withFile name content = r.withFile name content := by
  have last : (r.directory.put name (.file first)).put name (.file content) =
      r.directory.put name (.file content) := by
    simp [Directory.put, Directory.erase]
  exact congrArg (fun d => { r with place := .directory d }) last

theorem holds?_of_nothing (h : r.place = .nothing) : r.holds? name = none := by
  simp [holds?, directory, h]

theorem place_of_holds? {entry : Entry} (h : r.holds? name = some entry) :
    r.place = .directory r.directory := by
  unfold holds? at h
  cases hp : r.place with
  | directory d => simp [directory, hp]
  | nothing => simp [directory, hp] at h
  | plainFile => simp [directory, hp] at h

theorem made_eq (h : r.place = .directory r.directory) : r.made = r := by
  unfold made
  rw [← h]

theorem place_cases (r : Root) :
    r.place = .plainFile ∨ r.place = .nothing ∨ r.place = .directory r.directory := by
  cases h : r.place with
  | nothing => exact .inr (.inl rfl)
  | plainFile => exact .inl rfl
  | directory d => simp [directory, h]

theorem fits_congr (h : r.path = s.path) : r.fits name = s.fits name := by
  unfold fits
  rw [h]

theorem entry?_eq (r : Root) (name : String) :
    r.entry? name = if r.fits name then r.holds? name else none := by
  unfold entry? holds? directory
  cases r.place <;> simp

theorem entry?_made (r : Root) (name : String) : r.made.entry? name = r.entry? name := by
  rw [entry?_eq, entry?_eq, fits_congr path_made, holds?_made]

theorem file?_eq_some : r.file? name = some content ↔
    r.fits name = true ∧ r.holds? name = some (.file content) := by
  unfold file?
  rw [entry?_eq]
  split
  · next h =>
    split at h
    · next hf => simp [hf, h]
    · cases h
  · next h =>
    refine ⟨nofun, ?_⟩
    rintro ⟨hf, hc⟩
    rw [if_pos hf] at h
    exact absurd hc (h content)

theorem file?_of_holds?_eq_none (h : r.holds? name = none) : r.file? name = none := by
  rw [Option.eq_none_iff_forall_ne_some]
  intro content hfile
  rw [(file?_eq_some.mp hfile).2] at h
  cases h

theorem file?_congr (hp : r.path = s.path) (hn : r.holds? name = s.holds? name) :
    r.file? name = s.file? name := by
  unfold file?
  rw [entry?_eq, entry?_eq, fits_congr hp, hn]

theorem isFile_eq (r : Root) (name : String) : r.isFile name = (r.file? name).isSome := by
  unfold isFile file?
  cases r.entry? name with
  | none => rfl
  | some e => cases e <;> rfl

theorem tablePath_eq_ok {path : String} : r.tablePath name = .ok path ↔
    isTableName name = true ∧ path = joinPath r.path (tableFile name) := by
  unfold tablePath
  split
  · next h => simp only [h, true_and, Except.ok.injEq, eq_comm]
  · next h => simp [h]

theorem tablePath_of_isTableName (r : Root) (h : isTableName name = true) :
    r.tablePath name = .ok (joinPath r.path (tableFile name)) :=
  if_pos h

end Views

section Operations

variable {r : Root} {name : String} {content : ByteArray}

theorem ensure_of_plainFile (h : r.place = .plainFile) : r.ensure = .error .exists := by
  simp [ensure, h]

theorem ensure_eq_made (h : r.place ≠ .plainFile) : r.ensure = .ok r.made := by
  unfold ensure made directory
  cases hp : r.place with
  | plainFile => exact absurd hp h
  | nothing => rfl
  | directory d =>
    simp only
    rw [← hp]

theorem readFile_eq_ok : r.readFile name = .ok content ↔ r.file? name = some content := by
  unfold readFile file? entry?
  cases r.place with
  | nothing => simp
  | plainFile => simp
  | directory d =>
    cases hf : r.fits name with
    | false => simp
    | true =>
      cases he : d.find? name with
      | none => simp [he]
      | some e => cases e <;> simp [he]

theorem readFile_eq_missing : r.readFile name = .error .missing ↔
    r.place = .nothing ∨
      r.place = .directory r.directory ∧ r.fits name = true ∧ r.holds? name = none := by
  unfold readFile holds? directory
  cases r.place with
  | nothing => simp
  | plainFile => simp
  | directory d =>
    cases hf : r.fits name with
    | false => simp
    | true =>
      cases he : d.find? name with
      | none => simp [he]
      | some e => cases e <;> simp [he]

/-- A name that can be reached and is no directory is read, or it is missing. -/
theorem readFile_cases (hp : r.place ≠ .plainFile) (hf : r.fits name = true)
    (hn : r.holds? name ≠ some .directory) :
    (∃ content, r.readFile name = .ok content) ∨ r.readFile name = .error .missing := by
  rcases r.place_cases with hd | hd | hd
  · exact absurd hd hp
  · exact .inr (readFile_eq_missing.mpr (.inl hd))
  · cases hh : r.holds? name with
    | none => exact .inr (readFile_eq_missing.mpr (.inr ⟨hd, hf, hh⟩))
    | some entry =>
      cases entry with
      | directory => exact absurd hh hn
      | file content => exact .inl ⟨content, readFile_eq_ok.mpr (file?_eq_some.mpr ⟨hf, hh⟩)⟩

theorem writeFile_eq_withFile (hd : r.place = .directory r.directory) (hf : r.fits name = true)
    (hn : r.holds? name ≠ some .directory) :
    r.writeFile name content = .ok (r.withFile name content) := by
  unfold holds? at hn
  unfold writeFile withFile
  generalize r.directory = d at hd hn ⊢
  rw [hd]
  simp only [hf, if_true]

theorem writeFile_of_not_fits (hd : r.place = .directory r.directory) (hf : r.fits name = false) :
    r.writeFile name content = .error .nameTooLong := by
  unfold writeFile
  rw [hd]
  simp [hf]

theorem removeFile_of_nothing (h : r.place = .nothing) : r.removeFile name = .error .missing := by
  simp [removeFile, h]

theorem removeFile_of_not_fits (hd : r.place = .directory r.directory)
    (hf : r.fits name = false) : r.removeFile name = .error .nameTooLong := by
  unfold removeFile
  rw [hd]
  simp [hf]

/-- Removing a name that is no directory leaves the root without it, also if the
file was missing. -/
theorem removeFile_cases (hd : r.place = .directory r.directory) (hf : r.fits name = true)
    (hn : r.holds? name ≠ some .directory) :
    r.removeFile name = .ok (r.without name) ∨
      r.removeFile name = .error .missing ∧ r.holds? name = none := by
  unfold holds? at hn ⊢
  unfold removeFile without
  generalize r.directory = d at hd hn ⊢
  rw [hd]
  simp only [hf, if_true]
  cases he : d.find? name with
  | none => exact .inr ⟨rfl, rfl⟩
  | some e =>
    cases e with
    | file b => exact .inl rfl
    | directory => exact absurd he hn

end Operations

end TableStore.Root
