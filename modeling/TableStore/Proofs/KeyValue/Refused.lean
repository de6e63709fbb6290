import TableStore.Proofs.KeyValue.Owned

/-! Values that the store refuses. Making the table and storing the value are two commits, but
between them nothing is lost: in a table that was just made every value can be stored, so that a
failure leaves every file as it was. -/
namespace TableStore.Entries

open TableStore.Text TableStore.Sql

variable {db : Database} {root made : Root}

theorem checkNew_of_follows (h : Follows createCommand root made) :
    root.checkNew tableName = .ok () := by
  obtain ⟨answer, written, heffect, -⟩ := h
  obtain ⟨schema, -, hnew, -⟩ := Command.effect_create_eq_ok.mp heffect
  exact hnew

theorem exists_ensureTable? (free : db.slot.current = none) :
    ∃ outcome made, ensureTable? db = some (outcome, made) ∧ made.slot.current = none := by
  have served : ensureTable? db ≠ none := by
    unfold ensureTable?
    split
    · nofun
    · rw [ne_eq, Option.map_eq_none_iff, Database.execute?_eq_none, not_not]
      exact free
  obtain ⟨⟨outcome, made⟩, hensure⟩ := Option.ne_none_iff_exists'.mp served
  refine ⟨outcome, made, hensure, ?_⟩
  rcases ensureTable?_cases hensure with ⟨-, rfl⟩ | ⟨freed, -⟩
  · exact free
  · exact freed

/-- Nobody has to be waited for as long as no transaction is open. -/
theorem exists_set? (free : db.slot.current = none) (key : String) (value : Json) :
    ∃ outcome after, set? db key value = some (outcome, after) := by
  obtain ⟨outcome, made, hensure, freed⟩ := exists_ensureTable? free
  unfold set? Guard.open?
  rw [hensure]
  cases outcome with
  | error fault => exact ⟨_, _, rfl⟩
  | ok _ =>
    simp only [Database.begin?_eq_some.mpr ⟨freed, rfl⟩, Option.map_some]
    exact ⟨_, _, rfl⟩

/-- A value that is refused leaves every file as it was, so that no table was made for it
either; and whether it is stored or refused, no transaction stays open. -/
theorem set?_refused_sameEntries (free : db.slot.current = none) (key : String) (value : Json) :
    ∃ outcome after, set? db key value = some (outcome, after) ∧ after.slot.current = none ∧
      (∃ opened, after.begin? = some opened) ∧
      ∀ fault, outcome = .error fault → after.root.SameEntries db.root ∧
        after.hasTable tableName = db.hasTable tableName := by
  obtain ⟨outcome, after, hset⟩ := exists_set? free key value
  obtain ⟨-, freed, made, prepared, stored⟩ := set?_cases hset
  refine ⟨outcome, after, hset, freed, ⟨_, Database.begin?_eq_some.mpr ⟨freed, rfl⟩⟩, ?_⟩
  rintro fault rfl
  have same : after.root.SameEntries db.root := by
    rcases stored with ⟨-, same⟩ | ⟨hok, -⟩
    · rcases prepared with kept | created
      · exact same.trans kept
      · -- The table was just made, and there the value would have been stored.
        obtain ⟨last, hstored, -⟩ :=
          set?_of_owned free (.inl (checkNew_of_follows created)) key value
        cases hset.symm.trans hstored
    · cases hok
  refine ⟨same, ?_⟩
  unfold Database.hasTable Root.hasTable
  rw [Root.isFile_eq, Root.isFile_eq, Root.file?_congr same.path (same.entries _)]

/-- A table of the user's own, with a column for values and none for keys. -/
theorem set?_refused_sameEntries_unkeyed :
    let root : Root :=
      ⟨"db", .directory (Directory.empty.put "entries.csv" (.file "value\nstring\n".toUTF8))⟩
    let db : Database := ⟨root, {}⟩
    ∃ after, set? db "k" .null = some (.error (.columnNotFound "key"), after) ∧
      after.root.SameEntries root ∧ ∃ opened, after.begin? = some opened := by
  intro root db
  have free : db.slot.current = none := rfl
  have refused : (set? db "k" .null).map Prod.fst = some (.error (.columnNotFound "key")) := by
    decide +kernel
  obtain ⟨outcome, after, hset, -, opened, unchanged⟩ :=
    set?_refused_sameEntries free "k" .null
  rw [hset] at refused
  obtain rfl : outcome = .error (.columnNotFound "key") := Option.some.inj refused
  exact ⟨after, hset, (unchanged _ rfl).1, opened⟩

end TableStore.Entries
