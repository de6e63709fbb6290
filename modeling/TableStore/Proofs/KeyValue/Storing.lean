import TableStore.Proofs.Database.Single
import TableStore.Proofs.KeyValue.Texts
import TableStore.Proofs.Text.Hex

/-! What storing a value does: it may make the table, and then runs one command, which
depends on what is stored under the key. -/
namespace TableStore.Entries

open TableStore.Text TableStore.Sql

variable {db db' after : Database} {root made : Root} {slot : Slot} {key value : String}
  {outcome : Except Fault Unit}

theorem unquoted_encodeText (s : String) : Unquoted (Hex.encodeText s) := by
  intro h
  have := Hex.mem_digits_of_mem_encodeText h
  revert this
  decide

/-- A command succeeds, and this is the root after it. -/
def Follows (c : Command) (root after : Root) : Prop :=
  ∃ answer written, c.effect root = .ok (answer, written) ∧
    after = root.overwritten (tableFile c.table) written

theorem Follows.run {c : Command} {after : Root} (h : Follows c root after) :
    ∃ answer, c.run root = (.ok answer, after) := by
  obtain ⟨answer, written, heffect, rfl⟩ := h
  exact ⟨answer, Command.run_of_effect_ok heffect⟩

/-- The root before a value is stored: the table is made, or every file is as it was. -/
def Prepared (root made : Root) : Prop :=
  made.SameEntries root ∨ Follows createCommand root made

/-- The command that stores an encoded value, given what is found under the key. -/
def storeCommand (key value : String) : Option String → Command
  | some _ => updateCommand key value
  | none => insertCommand key value

theorem table_storeCommand (key value : String) (found : Option String) :
    (storeCommand key value found).table = tableName := by
  cases found <;> rfl

theorem follows_of_runQueue {c : Command} {answers : List Answer} {last : Root}
    (h : runQueue root [] [c] = (.ok answers, last)) : Follows c root last := by
  obtain ⟨answer, written, heffect, -, hlast⟩ := runQueue_single.mp h
  exact ⟨answer, written, heffect, hlast⟩

/-- Making the table takes a free slot, unless the table is there. -/
theorem ensureTable?_cases (h : ensureTable? db = some (outcome, db')) :
    outcome = .ok () ∧ db' = db ∨
      db'.slot.current = none ∧ db.slot.current = none ∧ Prepared db.root db'.root := by
  unfold ensureTable? at h
  split at h
  · cases h
    exact .inl ⟨rfl, rfl⟩
  · obtain ⟨⟨result, last⟩, hexecute, h⟩ := Option.map_eq_some_iff.mp h
    have hlast : last = db' := by
      cases result with
      | ok answer => cases h; rfl
      | error fault => cases fault <;> cases h <;> rfl
    subst hlast
    have free := Database.free_of_execute? hexecute
    right
    rcases Database.execute?_cases free createText with ⟨-, fault, he⟩ | ⟨c, hread, -, he⟩
    · rw [he] at hexecute
      cases hexecute
      exact ⟨rfl, free, .inl (Root.SameEntries.refl _)⟩
    · cases read_createText.symm.trans hread
      rw [he] at hexecute
      cases hexecute
      refine ⟨rfl, free, ?_⟩
      cases hr : runQueue db.root [] [createCommand] with
      | mk answers last =>
        cases answers with
        | error fault => exact .inl (sameEntries_of_runQueue_error hr)
        | ok answers => exact .inr (follows_of_runQueue hr)

theorem read_storeText {text : String} (hkey : Unquoted key) (hvalue : Unquoted value)
    (h : storeText db key value = .ok text) : ∃ found, lookup db key = .ok found ∧
      Command.read text = .ok (storeCommand key value found) := by
  obtain ⟨found, hfound, h⟩ := Outcome.bind_eq_ok.mp h
  refine ⟨found, hfound, ?_⟩
  cases found with
  | some old =>
    cases h
    exact read_updateText hkey hvalue
  | none =>
    cases h
    exact read_insertText hkey hvalue

theorem storeEncoded_cases (hkey : Unquoted key) (hvalue : Unquoted value)
    (h : storeEncoded ⟨root, slot.opened []⟩ ⟨slot.nextId⟩ key value = (outcome, after)) :
    after.slot = slot.passed ∧
      ((∃ fault, outcome = .error fault) ∧ after.root.SameEntries root ∨
        outcome = .ok () ∧ ∃ found, lookup ⟨root, {}⟩ key = .ok found ∧
          Follows (storeCommand key value found) root after.root) := by
  unfold storeEncoded Guard.exec Guard.drop Guard.commit at h
  cases he : (storeText ⟨root, slot.opened []⟩ key value).bind
      (Database.exec ⟨root, slot.opened []⟩ slot.nextId) with
  | error fault =>
    simp only [he, Database.abandon_opened] at h
    cases h
    exact ⟨rfl, .inl ⟨⟨fault, rfl⟩, Root.SameEntries.refl root⟩⟩
  | ok queued =>
    obtain ⟨text, htext, hexec⟩ := Outcome.bind_eq_ok.mp he
    obtain ⟨found, hfound, hread⟩ := read_storeText hkey hvalue htext
    obtain ⟨c, hread', -, rfl⟩ := Database.exec_opened_eq_ok.mp hexec
    cases hread.symm.trans hread'
    simp only [he, Database.commit_opened] at h
    cases hr : runQueue root [] [storeCommand key value found] with
    | mk answers last =>
      rw [hr] at h
      cases answers with
      | error fault =>
        cases h
        exact ⟨rfl, .inl ⟨⟨fault, rfl⟩, sameEntries_of_runQueue_error hr⟩⟩
      | ok answers =>
        cases h
        exact ⟨rfl, .inr ⟨rfl, found, hfound, follows_of_runQueue hr⟩⟩

/-- Storing a value under a key, once nobody has to be waited for. -/
theorem set?_cases {key : String} {value : Json} (h : set? db key value = some (outcome, after)) :
    db.slot.current = none ∧ after.slot.current = none ∧ ∃ made, Prepared db.root made ∧
      ((∃ fault, outcome = .error fault) ∧ after.root.SameEntries made ∨
        outcome = .ok () ∧ ∃ found, lookup ⟨made, {}⟩ (Hex.encodeText key) = .ok found ∧
          Follows (storeCommand (Hex.encodeText key) (Hex.encodeText value.render) found) made
            after.root) := by
  unfold set? at h
  split at h
  · cases h
  · next fault _ he =>
    cases h
    rcases ensureTable?_cases he with ⟨hok, -⟩ | ⟨freed, free, prepared⟩
    · cases hok
    · exact ⟨free, freed, after.root, prepared, .inl ⟨⟨fault, rfl⟩, Root.SameEntries.refl _⟩⟩
  · next made he =>
    obtain ⟨⟨g, opened⟩, hopen, h⟩ := Option.map_eq_some_iff.mp h
    obtain ⟨⟨id, opened'⟩, hbegin, hg⟩ := Option.map_eq_some_iff.mp hopen
    obtain ⟨freed, hopened⟩ := Database.begin?_eq_some.mp hbegin
    cases hopened
    cases hg
    have prepared : db.slot.current = none ∧ Prepared db.root made.root := by
      rcases ensureTable?_cases he with ⟨-, rfl⟩ | ⟨-, free, prepared⟩
      · exact ⟨freed, .inl (Root.SameEntries.refl _)⟩
      · exact ⟨free, prepared⟩
    obtain ⟨hslot, stored⟩ :=
      storeEncoded_cases (unquoted_encodeText key) (unquoted_encodeText value.render) h
    refine ⟨prepared.1, ?_, made.root, prepared.2, stored⟩
    rw [hslot]
    rfl

end TableStore.Entries
