import TableStore.Proofs.Cache.Loading
import TableStore.Proofs.Cache.Reopening

/-! What a change of the cache leaves in its log. Whatever the log was opened on and whatever
happened since, the log that a change wrote holds the entries of memory, in their order, and those
that are not expired are what it is loaded as. -/
namespace TableStore.LoggedCache

open Cache

variable {c held : LoggedCache} {log : LogPlace} {start now time ttl : Nat} {key value : String}
  {calls : List (Nat × CacheCall)}

/-- The cache after calls, each at its time. -/
def after (c : LoggedCache) : List (Nat × CacheCall) → LoggedCache
  | [] => c
  | (time, call) :: calls => (c.serve time call).2.after calls

/-- No call breaks the memory of a cache. -/
theorem serve_sound (h : c.cache.Sound) (time : Nat) (call : CacheCall) :
    (c.serve time call).2.cache.Sound := by
  cases call with
  | set key value ttl =>
    simp only [serve, set]
    cases c.log.write (c.cache.put time key value ttl).logText <;> exact h.put time key value ttl
  | get key => exact h.get time key
  | reopen => exact openLog_sound time c.log

theorem after_sound (h : c.cache.Sound) (calls : List (Nat × CacheCall)) :
    (c.after calls).cache.Sound := by
  induction calls generalizing c with
  | nil => exact h
  | cons first calls ih => exact ih (serve_sound h first.1 first.2)

/-- Reading leaves the log as it is. -/
theorem log_after_gets (c : LoggedCache) (reads : List (Nat × String)) :
    (c.after (reads.map fun r => (r.1, .get r.2))).log = c.log := by
  induction reads generalizing c with
  | nil => rfl
  | cons first reads ih => exact ih (c.serve first.1 (.get first.2)).2

theorem load_logText {c : Cache} (h : c.Sound) (now : Nat) : load now (.file c.logText.toUTF8) =
    .ok ⟨c.live now, .file c.logText.toUTF8⟩ := by
  rw [load_file, h.ofLog_logText]
  rfl

theorem exists_set_of_writable (h : c.log.Writable) (now : Nat) (key value : String) (ttl : Nat) :
    ∃ held, c.set now key value ttl = (.ok (), held) ∧
      held.cache = c.cache.put now key value ttl :=
  ⟨_, set_eq_ok_iff.mpr ⟨h, rfl⟩, rfl⟩

/-- The log that a change wrote is loaded as the entries that memory held right after it, as far as
they live on: with their keys, values and expiries, in their order, each key once. -/
theorem load_after_set
    (stored : ((openLog start log).after calls).set time key value ttl = (.ok (), held))
    (reads : List (Nat × String)) (now : Nat) :
    held.cache.find? key = some ⟨value, min (time + ttl) lastTime⟩ ∧ held.cache.keys.Nodup ∧
      ∃ loaded, load now (held.after (reads.map fun r => (r.1, .get r.2))).log = .ok loaded ∧
        loaded.cache.entries = held.cache.entries.filter (fun e => now < e.2.expiry) ∧
        loaded.cache.keys.Nodup := by
  obtain ⟨-, hheld⟩ := set_eq_ok_iff.mp stored
  have sound : held.cache.Sound := by
    rw [hheld]
    exact (after_sound (openLog_sound start log) calls).put time key value ttl
  have hfind : held.cache.find? key = some ⟨value, min (time + ttl) lastTime⟩ := by
    rw [hheld, find?_put, if_pos rfl, expiryAfter_eq]
  have hlog : held.log = .file held.cache.logText.toUTF8 := by
    rw [hheld]
  have hload : load now (held.after (reads.map fun r => (r.1, .get r.2))).log =
      .ok ⟨held.cache.live now, .file held.cache.logText.toUTF8⟩ := by
    rw [log_after_gets, hlog]
    exact load_logText sound now
  have hlive : (held.cache.live now).entries =
      held.cache.entries.filter (fun e => now < e.2.expiry) :=
    List.filter_congr fun e _ => by
      rw [CacheItem.isExpired, ← decide_not]
      exact decide_eq_decide.mpr Nat.not_le
  exact ⟨hfind, sound.distinct, _, hload, hlive, (sound.filter _).distinct⟩

/-- A log on which a key stands twice and one entry is expired. The new key and its value would
break the lines of the log if they were not escaped. -/
theorem load_after_set_quoted :
    let written : Cache := ⟨[("a", ⟨"old", 90⟩), ("b", ⟨"gone", 3⟩), ("a", ⟨"new", 80⟩)]⟩
    let log : LogPlace := .file written.logText.toUTF8
    let calls : List (Nat × CacheCall) := [(6, .get "a"), (7, .set "c" "" 10)]
    ∃ held loaded,
      ((openLog 5 log).after calls).set 8 "k\n\"\\" "\x00\r\n" 100 = (.ok (), held) ∧
      held.cache.entries =
        [("a", ⟨"new", 80⟩), ("c", ⟨"", 17⟩), ("k\n\"\\", ⟨"\x00\r\n", 108⟩)] ∧
      load 17 (held.after [(17, .get "c")]).log = .ok loaded ∧
      loaded.cache.entries = [("a", ⟨"new", 80⟩), ("k\n\"\\", ⟨"\x00\r\n", 108⟩)] := by
  intro written log calls
  obtain ⟨isLog, hentries⟩ := isLog_logText (c := written) (by decide)
  have hopen : openLog 5 log = ⟨⟨[("a", ⟨"new", 80⟩)]⟩, log⟩ := by
    unfold openLog
    rw [load_of_isLog isLog, hentries]
    rfl
  generalize hopened : (openLog 5 log).after calls = opened
  have hcache : opened.cache = ⟨[("a", ⟨"new", 80⟩), ("c", ⟨"", 17⟩)]⟩ := by
    rw [← hopened, hopen]
    rfl
  have writable : opened.log.Writable := by
    rw [← hopened, hopen]
    exact True.intro
  obtain ⟨held, stored, hheld⟩ :=
    exists_set_of_writable writable 8 "k\n\"\\" "\x00\r\n" 100
  obtain ⟨-, -, loaded, hload, hlive, -⟩ :=
    load_after_set (hopened ▸ stored) [(17, "c")] 17
  rw [hcache] at hheld
  rw [hheld] at hlive
  exact ⟨held, loaded, stored, congrArg Cache.entries hheld, hload, hlive⟩

end TableStore.LoggedCache
