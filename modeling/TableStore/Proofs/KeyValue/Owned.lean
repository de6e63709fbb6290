import TableStore.Proofs.KeyValue.Runs

/-! A root in which nothing but the store touches the table of the entries. The store makes
the table as it needs it, and there every value is stored under every key. -/
namespace TableStore.Entries

open TableStore.Text TableStore.Sql

variable {root : Root} {db : Database} {c : Contents} {key value : String}

def schema : Schema :=
  ⟨[⟨"key", .text⟩, ⟨"value", .text⟩], by decide⟩

/-- The table is there as the store leaves it. -/
structure Kept (root : Root) (c : Contents) : Prop where
  reads : root.Reads tableName c
  schema : c.schema = schema
  typed : c.WellTyped

/-- The table can be made, or it is there as the store leaves it. -/
def Owned (root : Root) : Prop :=
  root.checkNew tableName = .ok () ∨ ∃ c, Kept root c

theorem isStorable_encodeText (s : String) : isStorable (Hex.encodeText s) = true := by
  have digits (c : Char) (hc : c ∉ Hex.digits) : c ∉ (Hex.encodeText s).toList :=
    fun hmem => hc (Hex.mem_digits_of_mem_encodeText hmem)
  exact isStorable_iff.mpr ⟨digits _ (by decide), digits _ (by decide), digits _ (by decide)⟩

theorem effect_createCommand (h : root.checkNew tableName = .ok ()) : ∃ answer,
    createCommand.effect root = .ok (answer, some (Contents.encode ⟨schema, []⟩)) := by
  have declared : Schema.declare ["key", "value"] ["string", "string"] = .ok schema :=
    Schema.declare_eq_ok.mpr ⟨rfl, rfl⟩
  simp only [createCommand, Command.effect, declared, h, Outcome.ok_bind]
  exact ⟨_, rfl⟩

theorem Kept.index_value (h : Kept root c) : c.schema.index "value" = .ok 1 := by
  rw [h.schema]
  rfl

/-- Whatever is found under the key, the value can be put there. -/
theorem Kept.effect_storeCommand (h : Kept root c) (hkey : isStorable key = true)
    (hvalue : isStorable value = true) (found : Option String) : ∃ answer new,
    (storeCommand key value found).effect root = .ok (answer, some new.encode) ∧
      Kept (root.withFile (tableFile tableName) new.encode) new := by
  have second := h.index_value
  obtain ⟨reads, hschema, typed⟩ := h
  cases found with
  | none =>
    have names : c.schema.names = ["key", "value"] := by
      rw [hschema]
      rfl
    have row : c.schema.Holds [key, value] := by
      rw [hschema]
      exact .cons ⟨rfl, hkey⟩ (.cons ⟨rfl, hvalue⟩ .nil)
    have distinct : c.schema.names.Nodup := by
      rw [names]
      decide
    have hrows := Schema.newRows_names distinct (List.forall_mem_singleton.mpr row)
    rw [names] at hrows
    have added : Contents.WellTyped { c with rows := c.rows ++ [[key, value]] } :=
      typed.insert (List.forall_mem_singleton.mpr row)
    exact ⟨_, _, (Command.effect_insert_eq_ok reads).mpr ⟨_, hrows, added.check, rfl, rfl⟩,
      reads.withFile added.columns added.check, hschema, added⟩
  | some old =>
    have accepted : c.schema.checkAt 1 value = .ok () := by
      rw [hschema]
      exact Column.check_eq_ok.mpr ⟨rfl, hvalue⟩
    have assigned : c.schema.resolveAssignments [("value", value)] = .ok [(1, value)] := by
      simp only [Schema.resolveAssignments, List.mapM_cons, List.mapM_nil, second, accepted,
        Outcome.ok_bind]
      rfl
    obtain ⟨⟨count, new⟩, hupdate⟩ :
        ∃ p, c.update [("value", value)] (some (underKey key)) = .ok p := by
      unfold Contents.update
      rw [assigned]
      exact ⟨_, rfl⟩
    have same : new.schema = c.schema := by
      obtain ⟨-, -, rfl⟩ := update_eq_ok hupdate
      rfl
    have updated : new.WellTyped := typed.update hupdate
    exact ⟨_, new, (Command.effect_update_eq_ok reads).mpr
      ⟨count, new, hupdate, updated.check, rfl, rfl⟩,
      reads.withFile updated.columns updated.check, same.trans hschema, updated⟩

theorem ensureTable?_of_owned (free : db.slot.current = none) (h : Owned db.root) :
    ∃ made c, ensureTable? db = some (.ok (), made) ∧ made.slot.current = none ∧
      Kept made.root c := by
  unfold ensureTable?
  rcases h with room | ⟨c, kept⟩
  · obtain ⟨hname, -, hfits, hfree⟩ := Root.checkNew_eq_ok.mp room
    have absent : db.hasTable tableName = false :=
      hasTable_eq_false.mpr (Root.file?_of_holds?_eq_none hfree)
    obtain ⟨answer, heffect⟩ := effect_createCommand room
    rw [absent, Database.execute?_of_effect free read_createText rfl heffect]
    have typed : Contents.WellTyped ⟨schema, []⟩ := ⟨nofun, nofun⟩
    exact ⟨_, _, rfl, rfl, Root.reads_withFile hname hfits typed.columns typed.check, rfl, typed⟩
  · have there : db.hasTable tableName = true := by
      rw [← Bool.not_eq_false]
      exact fun absent => kept.reads.file?_ne_none (hasTable_eq_false.mp absent)
    rw [if_pos there]
    exact ⟨db, c, rfl, free, kept⟩

theorem storeEncoded_of_effect {found : Option String} {answer : Answer}
    {written : Option ByteArray} (slot : Slot) (hkey : Unquoted key) (hvalue : Unquoted value)
    (hfound : lookup ⟨root, {}⟩ key = .ok found)
    (heffect : (storeCommand key value found).effect root = .ok (answer, written)) :
    storeEncoded ⟨root, slot.opened []⟩ ⟨slot.nextId⟩ key value =
      (.ok (), ⟨root.overwritten (tableFile tableName) written, slot.passed⟩) := by
  obtain ⟨text, htext⟩ : ∃ text, storeText ⟨root, slot.opened []⟩ key value = .ok text := by
    have hlookup : lookup ⟨root, slot.opened []⟩ key = .ok found := hfound
    unfold storeText
    rw [hlookup]
    cases found <;> exact ⟨_, rfl⟩
  obtain ⟨found', hfound', hread⟩ := read_storeText hkey hvalue htext
  obtain rfl : found = found' := Except.ok.inj (hfound.symm.trans hfound')
  have changing : (storeCommand key value found).isReadOnly = false := by
    cases found <;> rfl
  have hexec : Database.exec ⟨root, slot.opened []⟩ slot.nextId text =
      .ok ⟨root, slot.opened [storeCommand key value found]⟩ :=
    Database.exec_opened_eq_ok.mpr ⟨_, hread, changing, rfl⟩
  have hqueue := runQueue_single.mpr ⟨answer, written, heffect, rfl, rfl⟩
  unfold storeEncoded Guard.exec Guard.commit
  rw [htext]
  simp only [Except.bind, hexec, Database.commit_opened, hqueue, table_storeCommand]

/-- As long as nothing else touches the table, every value is stored. -/
theorem set?_of_owned (free : db.slot.current = none) (h : Owned db.root) (key : String)
    (value : Json) : ∃ after, set? db key value = some (.ok (), after) ∧
      after.slot.current = none ∧ Owned after.root := by
  obtain ⟨made, c, hensure, freed, kept⟩ := ensureTable?_of_owned free h
  obtain ⟨found, hfound⟩ : ∃ found, lookup made (Hex.encodeText key) = .ok found := by
    rw [lookup_of_reads kept.reads (unquoted_encodeText key)]
    unfold Contents.valueUnder
    rw [kept.index_value]
    exact ⟨_, rfl⟩
  obtain ⟨answer, new, heffect, kept'⟩ :=
    kept.effect_storeCommand (isStorable_encodeText key) (isStorable_encodeText value.render) found
  have hstored := storeEncoded_of_effect made.slot (unquoted_encodeText key)
    (unquoted_encodeText value.render) hfound heffect
  have hset : set? db key value = some (storeEncoded ⟨made.root, made.slot.opened []⟩
      ⟨made.slot.nextId⟩ (Hex.encodeText key) (Hex.encodeText value.render)) := by
    unfold set? Guard.open?
    rw [hensure]
    simp only [Database.begin?_eq_some.mpr ⟨freed, rfl⟩, Option.map_some]
  rw [hset, hstored]
  exact ⟨_, rfl, rfl, .inr ⟨new, kept'⟩⟩

end TableStore.Entries
