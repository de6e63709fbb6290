import TableStore.Proofs.Cache.Replay

/-! Runs of a cache that is opened again from its log every now and then. Memory and log drift
apart: a read drops expired entries from memory only, and a reload passes over those that are
expired by then. What is served does not depend on either. -/
namespace TableStore

/-- What a cache is asked for; it is reopened by reading its log. -/
inductive CacheCall where
  | set (key value : String) (ttl : Nat)
  | get (key : String)
  | reopen

inductive CacheReply where
  | stored (outcome : Except Fault Unit)
  | found (value : Option String)
  | reopened

namespace LoggedCache

def serve (c : LoggedCache) (time : Nat) : CacheCall → CacheReply × LoggedCache
  | .set key value ttl => match c.set time key value ttl with
    | (outcome, after) => (.stored outcome, after)
  | .get key => match c.get time key with
    | (value, after) => (.found value, after)
  | .reopen => (.reopened, openLog time c.log)

def replies (c : LoggedCache) : List (Nat × CacheCall) → List CacheReply
  | [] => []
  | (time, call) :: calls => (c.serve time call).1 :: (c.serve time call).2.replies calls

end LoggedCache

namespace CacheCall

/-- The item that a call at a time puts under a key. -/
def item? (key : String) (time : Nat) : CacheCall → Option CacheItem
  | .set other value ttl => if other = key then some ⟨value, expiryAfter time ttl⟩ else none
  | _ => none

/-- The item that was put under a key last. -/
def lastItem (key : String) (calls : List (Nat × CacheCall)) : Option CacheItem :=
  calls.reverse.findSome? fun c => c.2.item? key c.1

variable {calls : List (Nat × CacheCall)} {key value : String} {time now : Nat} {call : CacheCall}
  {item : CacheItem}

theorem lastItem_append_singleton : lastItem key (calls ++ [(time, call)]) =
    (call.item? key time).or (lastItem key calls) := by
  unfold lastItem
  rw [List.reverse_append, List.reverse_singleton, List.singleton_append, List.findSome?_cons]
  cases call.item? key time <;> rfl

theorem item?_eq_some : call.item? key time = some item ↔
    ∃ ttl, call = .set key item.value ttl ∧ item.expiry = expiryAfter time ttl := by
  cases call with
  | set other value ttl =>
    simp only [item?, Option.ite_none_right_eq_some, Option.some.injEq]
    constructor
    · rintro ⟨rfl, rfl⟩
      exact ⟨ttl, rfl, rfl⟩
    · rintro ⟨_, ⟨⟩, hexpiry⟩
      exact ⟨rfl, by rw [← hexpiry]⟩
  | get => simp [item?]
  | reopen => simp [item?]

theorem item?_eq_none :
    call.item? key time = none ↔ ∀ value ttl, call ≠ .set key value ttl := by
  cases call with
  | set other value ttl =>
    simp only [item?, ite_eq_right_iff, reduceCtorEq, imp_false]
    exact ⟨fun hne value ttl h => hne (by cases h; rfl), fun h e => h value ttl (by rw [e])⟩
  | get => simp [item?]
  | reopen => simp [item?]

/-- The item that was put under a key last, spelled out in the calls. -/
theorem lastItem_eq_some : lastItem key calls = some item ↔
    ∃ earlier time ttl later, calls = earlier ++ (time, .set key item.value ttl) :: later ∧
      (∀ t v l, (t, .set key v l) ∉ later) ∧ item.expiry = min (time + ttl) lastTime := by
  unfold lastItem
  rw [List.findSome?_eq_some_iff]
  constructor
  · rintro ⟨later, ⟨time, call⟩, earlier, hcalls, hitem, others⟩
    obtain ⟨ttl, rfl, hexpiry⟩ := item?_eq_some.mp hitem
    refine ⟨earlier.reverse, time, ttl, later.reverse, ?_, ?_, ?_⟩
    · rw [← List.reverse_inj, hcalls]
      simp
    · intro t v l hmem
      exact item?_eq_none.mp (others _ (List.mem_reverse.mp hmem)) v l rfl
    · rw [hexpiry, expiryAfter_eq]
  · rintro ⟨earlier, time, ttl, later, rfl, others, hexpiry⟩
    refine ⟨later.reverse, (time, .set key item.value ttl), earlier.reverse, by simp, ?_, ?_⟩
    · exact item?_eq_some.mpr ⟨ttl, rfl, by rw [hexpiry, expiryAfter_eq]⟩
    · rintro ⟨t, call⟩ hmem
      refine item?_eq_none.mpr ?_
      rintro v l rfl
      exact others t v l (List.mem_reverse.mp hmem)

end CacheCall

open CacheCall TableStore.Text

variable {history calls : List (Nat × CacheCall)} {now later time ttl : Nat} {key value : String}
  {call : CacheCall}

namespace Cache

variable {c : Cache}

/-- From a time on, what is put last under a key is served until it expires. -/
def Serves (c : Cache) (now : Nat) (history : List (Nat × CacheCall)) : Prop :=
  ∀ later key, now ≤ later →
    c.valueAt later key = (lastItem key history).bind fun item => item.valueAt later

namespace Serves

theorem mono (h : c.Serves now history) (hlater : now ≤ later) : c.Serves later history :=
  fun last key hlast => h last key (Nat.le_trans hlater hlast)

theorem put (h : c.Serves now history) (key value : String) (ttl : Nat) :
    (c.put now key value ttl).Serves now (history ++ [(now, .set key value ttl)]) := by
  intro later other hlater
  rw [valueAt_put, lastItem_append_singleton, item?]
  by_cases ho : other = key
  · rw [if_pos ho, if_pos ho.symm]
    rfl
  · rw [if_neg ho, if_neg (Ne.symm ho)]
    exact h later other hlater

theorem get (h : c.Serves now history) (key : String) : (c.get now key).2.Serves now history :=
  fun later other hlater => (valueAt_get c key other hlater).trans (h later other hlater)

theorem live (h : c.Serves now history) (sound : c.Sound) : (c.live now).Serves now history :=
  fun later key hlater => (sound.valueAt_live hlater key).trans (h later key hlater)

/-- A call that puts nothing anywhere leaves what is to be served. -/
theorem idle (h : c.Serves now history) (hcall : ∀ key, call.item? key time = none) :
    c.Serves now (history ++ [(time, call)]) := by
  intro later key hlater
  rw [lastItem_append_singleton, hcall]
  exact h later key hlater

end Serves

end Cache

/-- Text can be written there. -/
def LogPlace.Writable : LogPlace → Prop
  | .nothing | .file _ => True
  | .noDirectory | .directory => False

namespace LoggedCache

variable {c after : LoggedCache} {log : LogPlace} {start : Nat}

theorem log_of_load (h : load now log = .ok c) : c.log = log := by
  unfold load at h
  cases log with
  | file content =>
    simp only at h
    cases htext : String.fromUTF8? content with
    | none => simp [htext] at h
    | some text =>
      rw [htext] at h
      obtain ⟨cache, -, rfl⟩ := Outcome.map_eq_ok.mp h
      rfl
  | directory => cases h
  | noDirectory => cases h; rfl
  | nothing => cases h; rfl

theorem log_openLog (now : Nat) (log : LogPlace) : (openLog now log).log = log := by
  unfold openLog
  cases hload : load now log with
  | error fault => rfl
  | ok c => exact log_of_load hload

/-- A value is stored just if its log can be written, and then the log is of the new cache. -/
theorem set_eq_ok_iff : c.set now key value ttl = (.ok (), after) ↔
    c.log.Writable ∧ after = ⟨c.cache.put now key value ttl,
      .file (c.cache.put now key value ttl).logText.toUTF8⟩ := by
  obtain ⟨cache, log⟩ := c
  cases log <;> simp [set, LogPlace.write, LogPlace.Writable, eq_comm]

/-- A log that can be written stays so, and every value is stored. -/
theorem forall_stored_of_writable (h : c.log.Writable) :
    ∀ fault, .stored (.error fault) ∉ c.replies calls := by
  induction calls generalizing c with
  | nil => nofun
  | cons first calls ih =>
    obtain ⟨time, call⟩ := first
    intro fault hmem
    rcases List.mem_cons.mp hmem with hfirst | hmem
    · cases call with
      | set key value ttl =>
        rw [serve, set_eq_ok_iff.mpr ⟨h, rfl⟩] at hfirst
        cases hfirst
      | get => cases hfirst
      | reopen => cases hfirst
    · refine ih ?_ fault hmem
      cases call with
      | set key value ttl =>
        rw [serve, set_eq_ok_iff.mpr ⟨h, rfl⟩]
        trivial
      | get key => exact h
      | reopen =>
        rw [serve, log_openLog]
        exact h

/-- The log was written by a cache that serves what is to be served, or nothing has been
written so far. -/
inductive LogTracks (now : Nat) (history : List (Nat × CacheCall)) : LogPlace → Prop
  | written (writer : Cache) (sound : writer.Sound) (serves : writer.Serves now history) :
      LogTracks now history (.file writer.logText.toUTF8)
  | missing {log : LogPlace} (missing : ∀ content, log ≠ .file content)
      (nothing : ({} : Cache).Serves now history) : LogTracks now history log

theorem LogTracks.imp {future : List (Nat × CacheCall)} (h : LogTracks now history log)
    (imp : ∀ c : Cache, c.Serves now history → c.Serves later future) :
    LogTracks later future log := by
  cases h with
  | written writer sound serves => exact .written writer sound (imp writer serves)
  | missing missing nothing => exact .missing missing (imp {} nothing)

/-- Memory and log both tell what is to be served, though not with the same entries. -/
structure Tracks (c : LoggedCache) (now : Nat) (history : List (Nat × CacheCall)) : Prop where
  sound : c.cache.Sound
  serves : c.cache.Serves now history
  log : LogTracks now history c.log

namespace Tracks

theorem openLog (h : LogTracks now history log) : (openLog now log).Tracks now history := by
  cases h with
  | written writer sound serves =>
    have hload : load now (.file writer.logText.toUTF8) =
        .ok ⟨writer.live now, .file writer.logText.toUTF8⟩ := by
      simp only [load, fromUTF8?_toUTF8, sound.ofLog_logText]
      rfl
    unfold LoggedCache.openLog
    rw [hload]
    exact ⟨sound.filter _, serves.live sound, .written writer sound serves⟩
  | missing missing nothing =>
    have hopen : LoggedCache.openLog now log = ⟨{}, log⟩ := by
      cases log with
      | file content => exact absurd rfl (missing content)
      | _ => rfl
    rw [hopen]
    exact ⟨.empty, nothing, .missing missing nothing⟩

theorem mono (h : c.Tracks now history) (hlater : now ≤ later) : c.Tracks later history :=
  ⟨h.sound, h.serves.mono hlater, h.log.imp fun _ serves => serves.mono hlater⟩

theorem idle (h : c.Tracks now history) (hcall : ∀ key, call.item? key time = none) :
    c.Tracks now (history ++ [(time, call)]) :=
  ⟨h.sound, h.serves.idle hcall, h.log.imp fun _ serves => serves.idle hcall⟩

theorem set (h : c.Tracks now history) (stored : c.set now key value ttl = (.ok (), after)) :
    after.Tracks now (history ++ [(now, .set key value ttl)]) := by
  have sound := h.sound.put now key value ttl
  have serves := h.serves.put key value ttl
  obtain ⟨-, rfl⟩ := set_eq_ok_iff.mp stored
  exact ⟨sound, serves, .written _ sound serves⟩

theorem get (h : c.Tracks now history) (key : String) : (c.get now key).2.Tracks now history :=
  ⟨h.sound.get now key, h.serves.get key, h.log⟩

/-- What a call leaves is in step with the calls up to it, unless a value was not stored. -/
theorem serve (h : c.Tracks now history) (hlater : now ≤ later)
    (stored : ∀ fault, (c.serve later call).1 ≠ .stored (.error fault)) :
    (c.serve later call).2.Tracks later (history ++ [(later, call)]) := by
  have h := h.mono hlater
  cases call with
  | set key value ttl =>
    cases hset : c.set later key value ttl with
    | mk outcome after =>
      simp only [LoggedCache.serve, hset] at stored ⊢
      cases outcome with
      | ok done => exact h.set hset
      | error fault => exact absurd rfl (stored fault)
  | get key => exact (h.get key).idle fun _ => rfl
  | reopen => exact (Tracks.openLog h.log).idle fun _ => rfl

/-- The answer to a read in the middle of a run. -/
theorem replies (h : c.Tracks now history)
    (clock : (now :: calls.map Prod.fst).Pairwise (· ≤ ·))
    (stored : ∀ fault, .stored (.error fault) ∉ c.replies calls)
    {before rest : List (Nat × CacheCall)} (hcut : calls = before ++ (time, .get key) :: rest) :
    (c.replies calls)[before.length]? =
      some (.found ((lastItem key (history ++ before)).bind fun item => item.valueAt time)) := by
  induction before generalizing c now history calls with
  | nil =>
    subst hcut
    have hlater : now ≤ time := (List.pairwise_cons.mp clock).1 time (by simp)
    have hfound := (Cache.get_fst c.cache time key).trans (h.serves time key hlater)
    rw [List.append_nil, ← hfound]
    rfl
  | cons first before ih =>
    obtain ⟨earlier, call⟩ := first
    subst hcut
    simp only [List.cons_append, LoggedCache.replies, List.mem_cons, not_or] at stored
    rw [List.cons_append, List.map_cons, List.pairwise_cons] at clock
    have next := h.serve (clock.1 earlier (by simp)) fun fault => (stored fault).1 ∘ Eq.symm
    have := ih next clock.2 (fun fault => (stored fault).2) rfl
    rw [List.append_assoc] at this
    exact this

end Tracks

/-- A cache is a map whose entries expire, also if it is reopened now and then. In every run in
which all values are stored and the clock never goes back, a read finds a value just if the
last call that stored under its key stored that value, and that has not expired since. -/
theorem replies_get_iff (missing : ∀ content, log ≠ .file content)
    (clock : (start :: calls.map Prod.fst).Pairwise (· ≤ ·))
    (stored : ∀ fault, .stored (.error fault) ∉ (openLog start log).replies calls)
    {before rest : List (Nat × CacheCall)} (hcut : calls = before ++ (now, .get key) :: rest) :
    ∃ found, ((openLog start log).replies calls)[before.length]? = some (.found found) ∧
      ∀ value, found = some value ↔
        ∃ earlier time ttl later, before = earlier ++ (time, .set key value ttl) :: later ∧
          (∀ t v l, (t, .set key v l) ∉ later) ∧ now < min (time + ttl) lastTime := by
  have first : (openLog start log).Tracks start [] :=
    Tracks.openLog (.missing missing fun _ _ _ => rfl)
  refine ⟨_, first.replies clock stored hcut, fun value => ?_⟩
  rw [List.nil_append, Option.bind_eq_some_iff]
  constructor
  · rintro ⟨item, hlast, hvalue⟩
    obtain ⟨live, rfl⟩ := CacheItem.valueAt_eq_some.mp hvalue
    obtain ⟨earlier, time, ttl, later, hcut, others, hexpiry⟩ := lastItem_eq_some.mp hlast
    exact ⟨earlier, time, ttl, later, hcut, others, hexpiry ▸ live⟩
  · rintro ⟨earlier, time, ttl, later, hcut, others, live⟩
    exact ⟨⟨value, min (time + ttl) lastTime⟩,
      lastItem_eq_some.mpr ⟨earlier, time, ttl, later, hcut, others, rfl⟩,
      CacheItem.valueAt_eq_some.mpr ⟨live, rfl⟩⟩

/-- A value in the place of another one that would have expired earlier, read after the log was
read again, and once more when it has expired. -/
theorem replies_get_iff_overwritten :
    let calls : List (Nat × CacheCall) := [(1, .set "k" "old" 5), (2, .set "k" "new" 10),
      (7, .reopen), (8, .get "k"), (12, .get "k")]
    ((openLog 0 .nothing).replies calls)[3]? = some (.found (some "new")) ∧
      ((openLog 0 .nothing).replies calls)[4]? = some (.found none) := by
  intro calls
  have missing : ∀ content, LogPlace.nothing ≠ .file content := nofun
  have clock : (0 :: calls.map Prod.fst).Pairwise (· ≤ ·) := by decide
  have stored : ∀ fault, .stored (.error fault) ∉ (openLog 0 .nothing).replies calls :=
    forall_stored_of_writable trivial
  constructor
  · have hcut : calls = calls.take 3 ++ (8, .get "k") :: calls.drop 4 := rfl
    obtain ⟨found, hreply, hfound⟩ := replies_get_iff missing clock stored hcut
    have live : found = some "new" := (hfound "new").mpr
      ⟨calls.take 1, 2, 10, [(7, .reopen)], rfl, by simp, by decide⟩
    rw [← live]
    exact hreply
  · have hcut : calls = calls.take 4 ++ (12, .get "k") :: [] := rfl
    obtain ⟨found, hreply, hfound⟩ := replies_get_iff missing clock stored hcut
    have expired : found = none := by
      rw [Option.eq_none_iff_forall_ne_some]
      intro value hvalue
      obtain ⟨earlier, time, ttl, later, hcut, -, live⟩ := (hfound value).mp hvalue
      have hmem : (time, CacheCall.set "k" value ttl) ∈ calls.take 4 :=
        hcut ▸ List.mem_append_right earlier List.mem_cons_self
      simp only [calls, List.take_succ_cons, List.take_zero, List.mem_cons, Prod.mk.injEq,
        CacheCall.set.injEq, List.not_mem_nil, or_false, reduceCtorEq, and_false] at hmem
      have : lastTime = 18446744073709551615 := rfl
      omega
    rw [← expired]
    exact hreply

end LoggedCache

end TableStore
