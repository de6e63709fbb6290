import TableStore.Proofs.Json.RoundTrip
import TableStore.Proofs.KeyValue.Values

/-! The store over the table of the entries is a map: a stored value is there afterwards, also
after the database was opened again, and nothing else is different. -/
namespace TableStore.Entries

open TableStore.Text TableStore.Sql

variable {db after : Database} {root made : Root} {c new : Contents} {key value : String}
  {found : Option String}

/-- What storing an encoded value makes of the table, given what is found under the key. -/
def Changes (c : Contents) (key value : String) : Option String → Contents → Prop
  | some _, new => ∃ count,
      c.update [("value", value)] (some (underKey key)) = .ok (count, new)
  | none, new => ∃ row, Added c.schema key value row ∧ new = ⟨c.schema, c.rows ++ [row]⟩

theorem changes_of_follows (h : Follows (storeCommand key value found) root made) :
    ∃ c new, root.Reads tableName c ∧ made.Reads tableName new ∧ Changes c key value found new := by
  obtain ⟨answer, written, heffect, rfl⟩ := h
  have changing : (storeCommand key value found).verb ≠ .create := by
    cases found <;> nofun
  obtain ⟨c, hreads⟩ := Command.exists_reads_of_effect changing heffect
  rw [table_storeCommand] at hreads ⊢
  cases found with
  | none =>
    obtain ⟨rows, hrows, hcheck, -, rfl⟩ := (Command.effect_insert_eq_ok hreads).mp heffect
    obtain ⟨row, rfl, added⟩ := added_of_newRows hrows
    exact ⟨c, _, hreads, hreads.withFile hreads.columns hcheck, row, added, rfl⟩
  | some old =>
    obtain ⟨count, new, hupdate, hcheck, -, rfl⟩ :=
      (Command.effect_update_eq_ok hreads).mp heffect
    have schema : new.schema = c.schema := by
      obtain ⟨i, -, rfl⟩ := update_eq_ok hupdate
      rfl
    exact ⟨c, new, hreads, hreads.withFile (schema ▸ hreads.columns) hcheck, count, hupdate⟩

/-- A table that is made is empty, and was not there. -/
theorem created_of_follows (h : Follows createCommand root made) :
    root.file? (tableFile tableName) = none ∧
      ∃ c, made.Reads tableName c ∧ c.schema.names = ["key", "value"] ∧ c.rows = [] := by
  obtain ⟨answer, written, heffect, rfl⟩ := h
  obtain ⟨schema, hschema, hnew, -, rfl⟩ := Command.effect_create_eq_ok.mp heffect
  obtain ⟨hname, -, hfits, hfree⟩ := Root.checkNew_eq_ok.mp hnew
  have names : schema.names = ["key", "value"] := (Schema.declare_eq_ok.mp hschema).1.symm
  have columns : schema.columns ≠ [] := by
    rw [ne_eq, ← Schema.names_eq_nil_iff, names]
    nofun
  exact ⟨Root.file?_of_holds?_eq_none hfree, ⟨schema, []⟩,
    Root.reads_withFile hname hfits columns (Contents.check_eq_ok.mpr nofun), names, rfl⟩

theorem lookup_of_prepared (prepared : Prepared db.root made) (h : made.Reads tableName c)
    (hvalue : ∃ i, c.schema.index "value" = .ok i) (hkey : Unquoted key) :
    lookup db key = c.valueUnder key := by
  rcases prepared with same | created
  · exact lookup_of_reads (h.congr same.symm) hkey
  · obtain ⟨absent, d, hd, -, hrows⟩ := created_of_follows created
    obtain rfl := h.unique hd
    obtain ⟨i, hi⟩ := hvalue
    rw [lookup_of_absent absent hkey]
    unfold Contents.valueUnder
    rw [hi, hrows]
    rfl

theorem Changes.index_value (h : Changes c key value found new) :
    ∃ i, c.schema.index "value" = .ok i := by
  cases found with
  | none =>
    obtain ⟨row, added, -⟩ := h
    obtain ⟨i, hi, -⟩ := added.value
    exact ⟨i, hi⟩
  | some old =>
    obtain ⟨count, hupdate⟩ := h
    obtain ⟨i, hi, -⟩ := update_eq_ok hupdate
    exact ⟨i, hi⟩

theorem Changes.self (h : Changes c key value found new)
    (hlength : ∀ row ∈ c.rows, row.length = c.schema.width)
    (hfound : c.valueUnder key = .ok found) : new.valueUnder key = .ok (some value) := by
  cases found with
  | none =>
    obtain ⟨row, added, rfl⟩ := h
    exact valueUnder_insert_self added hfound
  | some old =>
    obtain ⟨count, hupdate⟩ := h
    exact valueUnder_update_self hlength hupdate hfound

theorem Changes.of_ne {other : String} (h : Changes c key value found new) (hne : other ≠ key) :
    new.valueUnder other = c.valueUnder other := by
  cases found with
  | none =>
    obtain ⟨row, added, rfl⟩ := h
    exact valueUnder_insert_of_ne hne added
  | some old =>
    obtain ⟨count, hupdate⟩ := h
    exact valueUnder_update_of_ne hne hupdate

/-- The table before and after a value was stored. -/
theorem stored_of_set {key : String} {value : Json}
    (h : set? db key value = some (.ok (), after)) : ∃ made found c new,
      Prepared db.root made ∧ made.Reads tableName c ∧ after.root.Reads tableName new ∧
      c.valueUnder (Hex.encodeText key) = .ok found ∧
      Changes c (Hex.encodeText key) (Hex.encodeText value.render) found new := by
  obtain ⟨-, -, made, prepared, ⟨⟨fault, hfault⟩, -⟩ | ⟨-, found, hfound, follows⟩⟩ :=
    set?_cases h
  · cases hfault
  · obtain ⟨c, new, hc, hnew, changes⟩ := changes_of_follows follows
    have looked : lookup ⟨made, {}⟩ (Hex.encodeText key) = c.valueUnder (Hex.encodeText key) :=
      lookup_of_reads hc (unquoted_encodeText key)
    exact ⟨made, found, c, new, prepared, hc, hnew, looked.symm.trans hfound, changes⟩

/-- What is looked up where the table reads so after a value was stored. -/
theorem lookup_of_set {last : Database} {key : String} {value : Json}
    (h : set? db key value = some (.ok (), after)) (hlast : last.root.SameEntries after.root) :
    lookup last (Hex.encodeText key) = .ok (some (Hex.encodeText value.render)) ∧
      ∀ other, other ≠ key →
        lookup last (Hex.encodeText other) = lookup db (Hex.encodeText other) := by
  obtain ⟨made, found, c, new, prepared, hc, hnew, hfound, changes⟩ := stored_of_set h
  have looked (k : String) : lookup last (Hex.encodeText k) = new.valueUnder (Hex.encodeText k) :=
    lookup_of_reads (hnew.congr hlast) (unquoted_encodeText k)
  refine ⟨?_, fun other hne => ?_⟩
  · rw [looked, changes.self hc.length hfound]
  · rw [looked, changes.of_ne (Hex.encodeText_injective.ne hne),
      lookup_of_prepared prepared hc changes.index_value (unquoted_encodeText other)]

theorem decodeValue_encodeText (text : String) :
    decodeValue (Hex.encodeText text) = KeyValueStore.decodeValue text := by
  have hbytes : String.fromUTF8? ⟨text.toUTF8.data.toList.toArray⟩ = some text :=
    fromUTF8?_toUTF8 text
  unfold decodeValue
  rw [Hex.decode_encodeText]
  simp only [hbytes]

theorem get_of_lookup {other : Database} {key : String}
    (h : lookup db (Hex.encodeText key) = lookup other (Hex.encodeText key)) :
    get db key = get other key := by
  unfold get
  rw [h]

theorem get_of_set {last : Database} {key : String} {value : Json}
    (exact : Json.Exact Json.maxDepth value) (h : set? db key value = some (.ok (), after))
    (hlast : last.root.SameEntries after.root) :
    get last key = .ok (some value) ∧ ∀ other, other ≠ key → get last other = get db other := by
  obtain ⟨hself, hother⟩ := lookup_of_set h hlast
  refine ⟨?_, fun other hne => get_of_lookup (hother other hne)⟩
  unfold get
  rw [hself, Outcome.ok_bind]
  simp only [decodeValue_encodeText, KeyValueStore.decodeValue, Json.read_render exact,
    Outcome.ok_bind]
  rfl

end TableStore.Entries
