import TableStore.KeyValue.Cached
import TableStore.Proofs.Cache.Reopening
import TableStore.Proofs.KeyValue.Owned

/-! The two stores side by side. As long as nothing expires in the cache and nothing else
touches the table, they cannot be told apart. -/
namespace TableStore

inductive KeyCall where
  | set (key : String) (value : Json) (ttl : Nat)
  | get (key : String)

inductive KeyReply where
  | waits
  | stored (outcome : Except Fault Unit)
  | found (outcome : Except Fault (Option Json))

/-- A value is stored, or what is found is a value, nothing, or text that is no JSON. -/
def KeyReply.Regular : KeyReply → Prop
  | stored (.ok ()) | found (.ok _) | found (.error (.notJson _)) => True
  | _ => False

namespace KeyValueStore

/-- What is found where this text is held, if any. -/
def decodeHeld : Option String → Except Fault (Option Json)
  | none => .ok none
  | some text => (decodeValue text).map some

theorem decodeHeld_some (text : String) : decodeHeld (some text) = (decodeValue text).map some :=
  rfl

def answer (s : KeyValueStore σ) (state : σ) : KeyCall → KeyReply × σ
  | .set key value ttl => match s.set state key value ttl with
    | none => (.waits, state)
    | some (outcome, after) => (.stored outcome, after)
  | .get key => match s.get state key with
    | (outcome, after) => (.found outcome, after)

theorem answer_get (s : KeyValueStore σ) (state : σ) (key : String) :
    s.answer state (.get key) = (.found (s.get state key).1, (s.get state key).2) := rfl

theorem answer_set {s : KeyValueStore σ} {state after : σ} {key : String} {value : Json}
    {ttl : Nat} {outcome : Except Fault Unit}
    (h : s.set state key value ttl = some (outcome, after)) :
    s.answer state (.set key value ttl) = (.stored outcome, after) := by
  unfold answer
  simp only [h]

/-- Answers calls one after another; before each of them the clock goes to its time. -/
def replies (s : KeyValueStore σ) (tick : Nat → σ → σ) (state : σ) :
    List (Nat × KeyCall) → List KeyReply
  | [] => []
  | (time, call) :: calls =>
    (s.answer (tick time state) call).1 ::
      s.replies tick (s.answer (tick time state) call).2 calls

end KeyValueStore

/-- No call comes when a value has expired that was stored before. -/
def NeverExpires (calls : List (Nat × KeyCall)) : Prop :=
  calls.Pairwise fun earlier later => ∀ key value ttl, earlier.2 = .set key value ttl →
    later.1 < min (earlier.1 + ttl) lastTime

def CachedValues.tick (time : Nat) (s : CachedValues) : CachedValues :=
  { s with now := time }

open TableStore.Text TableStore.Entries

variable {s : CachedValues} {db : Database} {time : Nat} {call : KeyCall}
  {calls : List (Nat × KeyCall)}

/-- The table holds what the cache holds, none of which expires before the calls that are to
come, and both can be written. -/
structure Alike (calls : List (Nat × KeyCall)) (s : CachedValues) (db : Database) : Prop where
  writable : s.logged.log.Writable
  free : db.slot.current = none
  owned : Owned db.root
  same : ∀ key, lookup db (Hex.encodeText key) =
    .ok ((s.logged.cache.find? key).map fun item => Hex.encodeText item.value)
  live : ∀ key item, s.logged.cache.find? key = some item → ∀ c ∈ calls, c.1 < item.expiry

theorem regular_decodeHeld (held : Option String) :
    (KeyReply.found (KeyValueStore.decodeHeld held)).Regular := by
  cases held with
  | none => trivial
  | some text =>
    rw [KeyValueStore.decodeHeld_some]
    unfold KeyValueStore.decodeValue
    cases Json.read text <;> trivial

theorem Entries.get_of_lookup_eq_ok {key : String} {held : Option String}
    (h : lookup db (Hex.encodeText key) = .ok (held.map Hex.encodeText)) :
    get db key = KeyValueStore.decodeHeld held := by
  unfold get
  rw [h]
  cases held with
  | none => rfl
  | some text =>
    show (do return some (← decodeValue (Hex.encodeText text))) = _
    rw [decodeValue_encodeText, KeyValueStore.decodeHeld_some]
    cases KeyValueStore.decodeValue text <;> rfl

theorem CachedValues.get_of_live {key : String}
    (h : ∀ item, s.logged.cache.find? key = some item → s.now < item.expiry) : s.get key =
      (KeyValueStore.decodeHeld ((s.logged.cache.find? key).map CacheItem.value), s) := by
  unfold CachedValues.get LoggedCache.get
  rw [Cache.get_of_live h]
  cases s.logged.cache.find? key <;> rfl

theorem CachedValues.set_of_writable (h : s.logged.log.Writable) (key : String) (value : Json)
    (ttl : Nat) : ∃ after, s.set key value ttl = (.ok (), after) ∧ after.logged.log.Writable ∧
      after.logged.cache = s.logged.cache.put s.now key value.render ttl := by
  unfold CachedValues.set
  rw [LoggedCache.set_eq_ok_iff.mpr ⟨h, rfl⟩]
  exact ⟨_, rfl, trivial, rfl⟩

/-- The same answer, as it should be, and states that are alike for the calls to come. -/
def Matches (calls : List (Nat × KeyCall)) (cached : KeyReply × CachedValues)
    (listed : KeyReply × Database) : Prop :=
  cached.1 = listed.1 ∧ listed.1.Regular ∧ Alike calls cached.2 listed.2

theorem Alike.answer_get {key : String} (h : Alike ((time, .get key) :: calls) s db) :
    Matches calls (CachedValues.store.answer (s.tick time) (.get key))
      (Entries.store.answer db (.get key)) := by
  have live : ∀ item, s.logged.cache.find? key = some item → time < item.expiry :=
    fun item hitem => h.live key item hitem _ List.mem_cons_self
  have hcached : CachedValues.store.get (s.tick time) key =
      (KeyValueStore.decodeHeld ((s.logged.cache.find? key).map CacheItem.value), s.tick time) :=
    CachedValues.get_of_live live
  have hlisted : (Entries.store.get db key).1 =
      KeyValueStore.decodeHeld ((s.logged.cache.find? key).map CacheItem.value) := by
    refine Entries.get_of_lookup_eq_ok ((h.same key).trans ?_)
    rw [Option.map_map]
    rfl
  rw [KeyValueStore.answer_get, KeyValueStore.answer_get, hcached, hlisted]
  exact ⟨rfl, regular_decodeHeld _, h.writable, h.free, h.owned, h.same,
    fun key item hitem c hc => h.live key item hitem c (List.mem_cons_of_mem _ hc)⟩

theorem Alike.answer_set {key : String} {value : Json} {ttl : Nat}
    (h : Alike ((time, .set key value ttl) :: calls) s db)
    (unexpired : NeverExpires ((time, .set key value ttl) :: calls)) :
    Matches calls (CachedValues.store.answer (s.tick time) (.set key value ttl))
      (Entries.store.answer db (.set key value ttl)) := by
  obtain ⟨last, hset, writable, hcache⟩ := (s.tick time).set_of_writable h.writable key value ttl
  obtain ⟨after, hset', free, owned⟩ := set?_of_owned h.free h.owned key value
  obtain ⟨hself, hother⟩ := lookup_of_set hset' (Root.SameEntries.refl after.root)
  have hcached : CachedValues.store.set (s.tick time) key value ttl = some (.ok (), last) :=
    congrArg some hset
  have hlisted : Entries.store.set db key value ttl = some (.ok (), after) := hset'
  rw [KeyValueStore.answer_set hcached, KeyValueStore.answer_set hlisted]
  refine ⟨rfl, trivial, writable, free, owned, fun other => ?same, fun other item hitem => ?live⟩
  case same =>
    rw [hcache, Cache.find?_put]
    by_cases ho : other = key
    · rw [if_pos ho, ho, hself]
      rfl
    · rw [if_neg ho, hother other ho]
      exact h.same other
  case live =>
    rw [hcache, Cache.find?_put] at hitem
    intro c hc
    split at hitem
    · cases hitem
      rw [expiryAfter_eq]
      exact (List.pairwise_cons.mp unexpired).1 c hc key value ttl rfl
    · exact h.live other item hitem c (List.mem_cons_of_mem _ hc)

/-- Whatever is called, the stores give the same answer, and they stay alike. -/
theorem Alike.answer (h : Alike ((time, call) :: calls) s db)
    (unexpired : NeverExpires ((time, call) :: calls)) :
    Matches calls (CachedValues.store.answer (s.tick time) call)
      (Entries.store.answer db call) := by
  cases call with
  | get key => exact h.answer_get
  | set key value ttl => exact h.answer_set unexpired

theorem Alike.replies (h : Alike calls s db) (unexpired : NeverExpires calls) :
    CachedValues.store.replies CachedValues.tick s calls =
        Entries.store.replies (fun _ => id) db calls ∧
      ∀ reply ∈ Entries.store.replies (fun _ => id) db calls, reply.Regular := by
  induction calls generalizing s db with
  | nil => exact ⟨rfl, nofun⟩
  | cons first calls ih =>
    obtain ⟨time, call⟩ := first
    obtain ⟨same, regular, next⟩ := h.answer unexpired
    obtain ⟨sameRest, regularRest⟩ := ih next (List.pairwise_cons.mp unexpired).2
    constructor
    · unfold KeyValueStore.replies
      rw [same, sameRest]
      rfl
    · exact List.forall_mem_cons.mpr ⟨regular, regularRest⟩

/-- A root that was just opened, with nothing in it and room for a table. -/
theorem Entries.owned_of_openAt {root : Root} (opened : Database.openAt root = .ok db)
    (fresh : ∀ name, root.holds? name = none)
    (reachable : root.fits (tableFile tableName) = true) :
    Owned db.root ∧ db.slot.current = none ∧ db.root.file? (tableFile tableName) = none := by
  have place : root.place ≠ .plainFile := by
    intro plain
    unfold Database.openAt Root.ensure at opened
    rw [plain] at opened
    cases opened
  unfold Database.openAt at opened
  rw [Root.ensure_eq_made place] at opened
  cases opened
  have room : root.made.checkNew tableName = .ok () :=
    Root.checkNew_eq_ok.mpr ⟨by decide, nofun, reachable, fresh _⟩
  exact ⟨.inl room, rfl, Root.file?_of_holds?_eq_none (fresh _)⟩

/-- A cache with a new log and the table in a new root, whose file can be made there, are
interchangeable. Whatever values are stored under whatever keys, both give the same answers, as
long as no lifetime ends in the meantime: they store every value, and under every key they find
the same value, or both nothing, or both a text that they cannot read back. -/
theorem stores_interchangeable {root : Root} {start : Nat}
    (opened : Database.openAt root = .ok db) (fresh : ∀ name, root.holds? name = none)
    (reachable : root.fits (tableFile tableName) = true) (unexpired : NeverExpires calls) :
    CachedValues.store.replies CachedValues.tick ⟨LoggedCache.openLog start .nothing, start⟩ calls =
        Entries.store.replies (fun _ => id) db calls ∧
      ∀ reply ∈ Entries.store.replies (fun _ => id) db calls, reply.Regular := by
  obtain ⟨owned, free, absent⟩ := owned_of_openAt opened fresh reachable
  have alike : Alike calls ⟨LoggedCache.openLog start .nothing, start⟩ db :=
    ⟨trivial, free, owned, fun key => lookup_of_absent absent (unquoted_encodeText key), nofun⟩
  exact alike.replies unexpired

/-- A value, and in its place one that is nested too deeply to be read again. -/
theorem stores_interchangeable_nested :
    let root : Root := ⟨"db", .nothing⟩
    let deep : Json := Nat.repeat (fun v => .array [v]) 128 .null
    let calls : List (Nat × KeyCall) := [(1, .set "k" (.bool true) 100), (2, .get "k"),
      (3, .set "k" deep 100), (4, .get "k"), (5, .get "")]
    let cached := CachedValues.store.replies CachedValues.tick
      ⟨LoggedCache.openLog 0 .nothing, 0⟩ calls
    cached = Entries.store.replies (fun _ => id) ⟨root.made, {}⟩ calls ∧
      cached[1]? = some (.found (.ok (some (.bool true)))) ∧
      (∃ reason, cached[3]? = some (.found (.error (.notJson reason)))) ∧
      cached[4]? = some (.found (.ok none)) := by
  intro root deep calls cached
  have opened : Database.openAt root = .ok ⟨root.made, {}⟩ := rfl
  have fresh : ∀ name, root.holds? name = none := fun _ => rfl
  have reachable : root.fits (tableFile tableName) = true := by decide +kernel
  have unexpired : NeverExpires calls := by
    simp only [calls, NeverExpires, List.pairwise_cons, List.forall_mem_cons]
    simp [lastTime]
  obtain ⟨same, -⟩ := stores_interchangeable opened fresh reachable unexpired
  have unread : (Json.read deep.render).toOption.isNone = true := by
    unfold Json.read Json.render
    rw [String.toList_ofList]
    decide +kernel
  have hdeep : cached[3]? = some (.found (KeyValueStore.decodeHeld (some deep.render))) := rfl
  refine ⟨same, rfl, ?_, rfl⟩
  rw [hdeep, KeyValueStore.decodeHeld_some, KeyValueStore.decodeValue]
  cases hread : Json.read deep.render with
  | ok value =>
    rw [hread] at unread
    cases unread
  | error fault => exact ⟨_, rfl⟩

end TableStore
