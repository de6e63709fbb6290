import TableStore.Proofs.Json.Nesting
import TableStore.Proofs.KeyValue.Interchange

/-! What becomes of a value that is stored. Values of any nesting are accepted, but only those
that are not nested too deeply for the reader are found again; the others stay in the store as
texts that cannot be read. -/
namespace TableStore

open TableStore.Text TableStore.Entries

variable {db : Database} {root : Root} {key : String} {value : Json} {start time later ttl : Nat}

/-- A value is put into a new store, and its key is looked up before the value expires. -/
def storedThenFound (key : String) (value : Json) (time ttl later : Nat) : List (Nat × KeyCall) :=
  [(time, .set key value ttl), (later, .get key)]

/-- The value is stored, and what is found is what its text is read as. -/
def storedAndRead (value : Json) : List KeyReply :=
  [.stored (.ok ()), .found (KeyValueStore.decodeHeld (some value.render))]

theorem CachedValues.replies_storedThenFound (unexpired : later < min (time + ttl) lastTime) :
    CachedValues.store.replies CachedValues.tick ⟨LoggedCache.openLog start .nothing, start⟩
      (storedThenFound key value time ttl later) = storedAndRead value := by
  let opened : CachedValues := ⟨LoggedCache.openLog start .nothing, start⟩
  obtain ⟨after, hset, -, hcache⟩ := (opened.tick time).set_of_writable trivial key value ttl
  have held : (after.tick later).logged.cache.find? key =
      some ⟨value.render, expiryAfter time ttl⟩ := by
    show after.logged.cache.find? key = _
    rw [hcache, Cache.find?_put, if_pos rfl]
    rfl
  have live : ∀ item, (after.tick later).logged.cache.find? key = some item →
      later < item.expiry := by
    intro item hitem
    cases held.symm.trans hitem
    rwa [expiryAfter_eq]
  have stored : CachedValues.store.answer (opened.tick time) (.set key value ttl) =
      (.stored (.ok ()), after) := KeyValueStore.answer_set (congrArg some hset)
  have found : CachedValues.store.get (after.tick later) key =
      (KeyValueStore.decodeHeld (some value.render), after.tick later) := by
    have hget := CachedValues.get_of_live live
    rwa [held] at hget
  simp only [storedThenFound, KeyValueStore.replies]
  rw [stored]
  simp only [KeyValueStore.answer_get, found]
  rfl

theorem Entries.replies_storedThenFound (opened : Database.openAt root = .ok db)
    (fresh : ∀ name, root.holds? name = none)
    (reachable : root.fits (tableFile tableName) = true) :
    Entries.store.replies (fun _ => id) db (storedThenFound key value time ttl later) =
      storedAndRead value := by
  obtain ⟨owned, free, -⟩ := owned_of_openAt opened fresh reachable
  obtain ⟨after, hset, -, -⟩ := set?_of_owned free owned key value
  have hlisted : Entries.store.set db key value ttl = some (.ok (), after) := hset
  have held := (lookup_of_set hset (Root.SameEntries.refl after.root)).1
  have found : (Entries.store.get after key).1 = KeyValueStore.decodeHeld (some value.render) :=
    get_of_lookup_eq_ok held
  simp only [storedThenFound, KeyValueStore.replies, id_eq]
  rw [KeyValueStore.answer_set hlisted]
  simp only [KeyValueStore.answer_get, found]
  rfl

theorem KeyValueStore.decodeHeld_of_le {depth : Nat} (exact : Json.Exact depth value)
    (hn : value.nesting ≤ Json.maxDepth) :
    decodeHeld (some value.render) = .ok (some value) := by
  rw [decodeHeld_some, decodeValue, Json.read_render_of_le exact hn]
  rfl

theorem KeyValueStore.decodeHeld_of_lt {depth : Nat} (exact : Json.Exact depth value)
    (hn : Json.maxDepth < value.nesting) : ∃ fault : Json.ReadFault, fault.cause = .tooDeep ∧
      decodeHeld (some value.render) = .error (.notJson (fault.message value.render)) := by
  obtain ⟨fault, hcause, hfault⟩ := Json.read_render_of_lt exact hn
  refine ⟨fault, hcause, ?_⟩
  rw [decodeHeld_some, decodeValue, hfault]
  rfl

/-- Both stores accept every value, however deeply it is nested; but they find it again only if
the reader goes as deep, and else its key gives an error from then on. -/
theorem stores_found_iff_nesting {depth : Nat} (opened : Database.openAt root = .ok db)
    (fresh : ∀ name, root.holds? name = none)
    (reachable : root.fits (tableFile tableName) = true) (exact : Json.Exact depth value)
    (unexpired : later < min (time + ttl) lastTime) :
    let calls := storedThenFound key value time ttl later
    ∃ found,
      CachedValues.store.replies CachedValues.tick ⟨LoggedCache.openLog start .nothing, start⟩
        calls = [.stored (.ok ()), .found found] ∧
      Entries.store.replies (fun _ => id) db calls = [.stored (.ok ()), .found found] ∧
      (value.nesting ≤ Json.maxDepth → found = .ok (some value)) ∧
      (Json.maxDepth < value.nesting → ∃ fault : Json.ReadFault, fault.cause = .tooDeep ∧
        found = .error (.notJson (fault.message value.render))) :=
  ⟨_, CachedValues.replies_storedThenFound unexpired,
    Entries.replies_storedThenFound opened fresh reachable,
    KeyValueStore.decodeHeld_of_le exact, KeyValueStore.decodeHeld_of_lt exact⟩

/-- A list in a list, and so on. -/
def Json.nested (depth : Nat) : Json :=
  Nat.repeat (fun v => .array [v]) depth .null

theorem Json.nested_spec (depth : Nat) :
    Exact depth (nested depth) ∧ (nested depth).nesting = depth := by
  induction depth with
  | zero => exact ⟨.null, rfl⟩
  | succ depth ih =>
    have hnesting : (nested (depth + 1)).nesting = max (nested depth).nesting 0 + 1 := rfl
    refine ⟨.array fun v hv => ?_, ?_⟩
    · cases List.mem_singleton.mp hv
      exact ih.1
    · rw [hnesting, ih.2, Nat.max_zero]

/-- The deepest lists that are found again. -/
theorem stores_found_nested :
    let root : Root := ⟨"db", .nothing⟩
    let calls := storedThenFound "k" (Json.nested 127) 1 100 2
    let replies : List KeyReply := [.stored (.ok ()), .found (.ok (some (Json.nested 127)))]
    CachedValues.store.replies CachedValues.tick ⟨LoggedCache.openLog 0 .nothing, 0⟩ calls =
        replies ∧
      Entries.store.replies (fun _ => id) ⟨root.made, {}⟩ calls = replies := by
  intro root calls replies
  have opened : Database.openAt root = .ok ⟨root.made, {}⟩ := rfl
  have reachable : root.fits (tableFile tableName) = true := by decide +kernel
  have unexpired : 2 < min (1 + 100) lastTime := by decide
  obtain ⟨exact, hnesting⟩ := Json.nested_spec 127
  obtain ⟨found, hcached, hlisted, hfound, -⟩ :=
    stores_found_iff_nesting opened (fun _ => rfl) reachable exact unexpired
  obtain rfl := hfound (Nat.le_of_eq hnesting)
  exact ⟨hcached, hlisted⟩

/-- With one more list around them both stores accept them, and refuse to give them back. -/
theorem stores_refuse_nested :
    let root : Root := ⟨"db", .nothing⟩
    let calls := storedThenFound "k" (Json.nested 128) 1 100 2
    ∃ fault,
      CachedValues.store.replies CachedValues.tick ⟨LoggedCache.openLog 0 .nothing, 0⟩ calls =
        [.stored (.ok ()), .found (.error fault)] ∧
      Entries.store.replies (fun _ => id) ⟨root.made, {}⟩ calls =
        [.stored (.ok ()), .found (.error fault)] := by
  intro root calls
  have opened : Database.openAt root = .ok ⟨root.made, {}⟩ := rfl
  have reachable : root.fits (tableFile tableName) = true := by decide +kernel
  have unexpired : 2 < min (1 + 100) lastTime := by decide
  obtain ⟨exact, hnesting⟩ := Json.nested_spec 128
  have deep : Json.maxDepth < (Json.nested 128).nesting := by
    rw [hnesting]
    decide
  obtain ⟨fault, -, hfault⟩ := KeyValueStore.decodeHeld_of_lt exact deep
  rw [CachedValues.replies_storedThenFound unexpired,
    Entries.replies_storedThenFound opened (fun _ => rfl) reachable]
  unfold storedAndRead
  rw [hfault]
  exact ⟨_, rfl, rfl⟩

end TableStore
