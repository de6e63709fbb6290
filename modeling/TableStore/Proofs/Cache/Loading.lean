import TableStore.Proofs.Cache.Replay
import TableStore.Proofs.Json.Naturals

/-! Logs that anyone may have written: a key can stand on many lines, and lines can be blank or
expired. Expired lines are passed over before they take the place of earlier ones, so that what
counts under a key is the last of its lines that are live. -/
namespace TableStore

open TableStore.Outcome TableStore.Text

namespace Cache

variable {c : Cache} {now number : Nat} {key : String} {item : CacheItem} {line : List Char}
  {ls : List (List Char)} {entries : List (String × CacheItem)} {text : String}

/-- The item of the last of these entries that has this key. -/
def newest? (key : String) (entries : List (String × CacheItem)) : Option CacheItem :=
  entries.reverse.lookup key

def liveEntries (now : Nat) (entries : List (String × CacheItem)) : List (String × CacheItem) :=
  entries.filter fun e => !e.2.isExpired now

/-- The entry on a line; there is none on a blank line. -/
def entryOn? (line : List Char) : Option (String × CacheItem) :=
  if line.all isBlank then none else (readLine line).toOption

def loggedEntries (text : String) : List (String × CacheItem) :=
  (lines text.toList).filterMap entryOn?

/-- A cache after entries were added to it one after another. -/
def extend (c : Cache) (entries : List (String × CacheItem)) : Cache :=
  entries.foldl (fun c e => c.insert e.1 e.2) c

/-- Every line of a log that is not blank holds an entry. -/
def IsLog (text : String) : Prop :=
  ∀ line ∈ lines text.toList, line.all isBlank = false → ∃ e, readLine line = .ok e

section Newest

theorem newest?_cons (key : String) (e : String × CacheItem)
    (entries : List (String × CacheItem)) :
    newest? key (e :: entries) =
      (newest? key entries).or (if key = e.1 then some e.2 else none) := by
  obtain ⟨other, item⟩ := e
  unfold newest?
  rw [List.reverse_cons, List.lookup_append, List.lookup_cons]
  by_cases hkey : key = other
  · rw [hkey, beq_self_eq_true, if_pos rfl]
  · rw [beq_eq_false_iff_ne.mpr hkey, if_neg hkey, List.lookup_nil]

theorem newest?_eq_none : newest? key entries = none ↔ ∀ e ∈ entries, e.1 ≠ key := by
  unfold newest?
  rw [List.lookup_eq_none_iff]
  simp only [List.mem_reverse, bne_iff_ne]
  exact forall₂_congr fun e _ => ne_comm

/-- The newest item of a key, spelled out in the entries. -/
theorem newest?_eq_some : newest? key entries = some item ↔
    ∃ before later, entries = before ++ (key, item) :: later ∧ ∀ e ∈ later, e.1 ≠ key := by
  unfold newest?
  rw [List.lookup_eq_some_iff]
  constructor
  · rintro ⟨later, before, hcut, others⟩
    refine ⟨before.reverse, later.reverse, ?_, fun e he => ?_⟩
    · rw [← List.reverse_inj, hcut]
      simp
    · exact (bne_iff_ne.mp (others e (List.mem_reverse.mp he))).symm
  · rintro ⟨before, later, rfl, others⟩
    exact ⟨later.reverse, before.reverse, by simp,
      fun e he => bne_iff_ne.mpr (others e (List.mem_reverse.mp he)).symm⟩

theorem newest?_liveEntries_of_live (h : newest? key entries = some item)
    (live : now < item.expiry) : newest? key (liveEntries now entries) = some item := by
  obtain ⟨before, later, rfl, others⟩ := newest?_eq_some.mp h
  have held : ¬item.isExpired now = true := by
    rw [CacheItem.isExpired_iff, Nat.not_le]
    exact live
  refine newest?_eq_some.mpr ⟨liveEntries now before, liveEntries now later, ?_, ?_⟩
  · unfold liveEntries
    rw [List.filter_append, List.filter_cons_of_pos (by simp [held])]
  · exact fun e he => others e (List.mem_of_mem_filter he)

theorem newest?_liveEntries_eq_none : newest? key (liveEntries now entries) = none ↔
    ∀ e ∈ entries, e.1 = key → e.2.expiry ≤ now := by
  rw [newest?_eq_none]
  simp only [liveEntries, List.mem_filter, Bool.not_eq_true', and_imp, ← Bool.not_eq_true,
    CacheItem.isExpired_iff]
  exact forall₂_congr fun e _ => not_imp_not.symm.trans (by simp)

/-- The last line decides as long as it is live, or none is. -/
theorem newest?_liveEntries_iff : (newest? key (liveEntries now entries)).map CacheItem.value =
      (newest? key entries).bind (fun item => item.valueAt now) ↔
    (∀ item, newest? key entries = some item → now < item.expiry) ∨
      ∀ e ∈ entries, e.1 = key → e.2.expiry ≤ now := by
  rw [← newest?_liveEntries_eq_none]
  cases hnew : newest? key entries with
  | none =>
    have absent : newest? key (liveEntries now entries) = none :=
      newest?_liveEntries_eq_none.mpr fun e he hkey => absurd hkey (newest?_eq_none.mp hnew e he)
    simp [absent]
  | some item =>
    rcases Nat.lt_or_ge now item.expiry with live | expired
    · rw [newest?_liveEntries_of_live hnew live, Option.bind_some,
        CacheItem.valueAt_eq_some.mpr ⟨live, rfl⟩]
      simp [live]
    · rw [Option.bind_some, CacheItem.valueAt_eq_none.mpr expired]
      simp [Nat.not_lt.mpr expired]

end Newest

/-- The entries of a log are added one after another, those that are live. -/
theorem readLines_eq (h : ∀ line ∈ ls, line.all isBlank = false → ∃ e, readLine line = .ok e) :
    readLines now number c ls = .ok (c.extend (liveEntries now (ls.filterMap entryOn?))) := by
  induction ls generalizing c number with
  | nil => rfl
  | cons line ls ih =>
    rw [List.forall_mem_cons] at h
    unfold readLines
    cases blank : line.all isBlank with
    | true =>
      have hentry : entryOn? line = none := if_pos blank
      rw [if_pos rfl, ih h.2, List.filterMap_cons_none hentry]
    | false =>
      obtain ⟨⟨key, item⟩, hread⟩ := h.1 blank
      have hentry : entryOn? line = some (key, item) := by
        rw [entryOn?, blank, hread]
        rfl
      rw [if_neg Bool.false_ne_true, hread, List.filterMap_cons_some hentry, liveEntries]
      simp only
      by_cases expired : item.isExpired now = true
      · rw [if_pos expired, ih h.2, List.filter_cons_of_neg (by simp [expired])]
        rfl
      · rw [if_neg expired, ih h.2, List.filter_cons_of_pos (by simp [expired])]
        rfl

theorem find?_extend (c : Cache) (entries : List (String × CacheItem)) (key : String) :
    (c.extend entries).find? key = (newest? key entries).or (c.find? key) := by
  unfold extend
  induction entries generalizing c with
  | nil => rfl
  | cons e entries ih =>
    rw [List.foldl_cons, ih, newest?_cons, find?_insert, Option.or_assoc]
    by_cases hkey : key = e.1
    · rw [if_pos hkey, if_pos hkey, Option.some_or]
    · rw [if_neg hkey, if_neg hkey, Option.none_or]

/-- A log that a cache wrote holds its entries, also if some of them have one key. -/
theorem isLog_logText (inTime : ∀ e ∈ c.entries, e.2.expiry ≤ lastTime) :
    IsLog c.logText ∧ loggedEntries c.logText = c.entries := by
  have hentry : ∀ e ∈ c.entries, (entryOn? ∘ fun e => lineText e.1 e.2) e = some e := by
    intro e he
    rw [Function.comp_apply, entryOn?, all_isBlank_lineText, readLine_lineText (inTime e he)]
    rfl
  constructor
  · intro line hline _
    rw [lines_logText] at hline
    obtain ⟨e, he, rfl⟩ := List.mem_map.mp hline
    exact ⟨_, readLine_lineText (inTime e he)⟩
  · unfold loggedEntries
    rw [lines_logText, List.filterMap_map, List.filterMap_congr hentry, List.filterMap_some]

/-- What is on a line expires at a time that there is. -/
theorem inTime_of_readLine (h : readLine line = .ok (key, item)) : item.expiry ≤ lastTime := by
  unfold readLine at h
  cases hread : Json.readShape lineShape (String.ofList line) with
  | error fault =>
    simp only [hread] at h
    cases h
  | ok d =>
    simp only [hread] at h
    obtain ⟨key', -, h⟩ := bind_eq_ok.mp h
    obtain ⟨value, -, h⟩ := bind_eq_ok.mp h
    obtain ⟨expiry, hexpiry, h⟩ := bind_eq_ok.mp h
    cases h
    unfold required at hexpiry
    split at hexpiry
    · next hfield =>
      cases hexpiry
      exact Nat.le_sub_one_of_lt ((Json.readShape_fits _ _ d hread).naturalField? hfield)
    · cases hexpiry

/-- Adding an entry is storing it at the beginning of time. -/
theorem insert_eq_put (h : item.expiry ≤ lastTime) :
    c.insert key item = c.put 0 key item.value item.expiry := by
  have hexpiry : expiryAfter 0 item.expiry = item.expiry := by
    rw [expiryAfter_eq, Nat.zero_add, Nat.min_eq_left h]
  rw [put, hexpiry]

/-- Whatever lines are read, no key is held twice, and every expiry is a time. -/
theorem Sound.readLines (h : c.Sound) (now number : Nat) (ls : List (List Char)) :
    Gives Sound (readLines now number c ls) := by
  induction ls generalizing c number with
  | nil => exact .ok h
  | cons line ls ih =>
    unfold Cache.readLines
    refine .ite (fun _ => ih h _) fun _ => ?_
    cases hread : readLine line with
    | error reason => exact .error _
    | ok e =>
      obtain ⟨key, item⟩ := e
      refine ih ?_ _
      split
      · exact h
      · rw [insert_eq_put (inTime_of_readLine hread)]
        exact h.put 0 key item.value item.expiry

end Cache

namespace LoggedCache

open Cache

variable {now : Nat} {log : LogPlace} {text : String}

theorem load_sound (now : Nat) (log : LogPlace) :
    Gives (fun c => c.cache.Sound) (load now log) := by
  unfold load
  split
  · exact .ok .empty
  · exact .ok .empty
  · exact .error _
  · split
    · exact .error _
    · exact (Sound.empty.readLines now 1 _).map fun _ sound => sound

theorem openLog_sound (now : Nat) (log : LogPlace) : (openLog now log).cache.Sound := by
  unfold openLog
  split
  · next c hload => exact load_sound now log c hload
  · exact .empty

theorem load_file (now : Nat) (text : String) : load now (.file text.toUTF8) =
    (ofLog now text).map fun cache => ⟨cache, .file text.toUTF8⟩ := by
  simp only [load, fromUTF8?_toUTF8]

theorem load_of_isLog (h : IsLog text) (now : Nat) : load now (.file text.toUTF8) =
    .ok ⟨extend {} (liveEntries now (loggedEntries text)), .file text.toUTF8⟩ := by
  have hlog : ofLog now text = .ok (extend {} (liveEntries now (loggedEntries text))) :=
    readLines_eq h
  rw [load_file, hlog]
  rfl

theorem find?_extend_liveEntries (now : Nat) (entries : List (String × CacheItem)) (key : String) :
    (extend {} (liveEntries now entries)).find? key = newest? key (liveEntries now entries) :=
  (find?_extend {} _ key).trans Option.or_none

/-- A log is loaded as the last live line of each key, so that a line is served in place of a newer
one just if the newer one is expired. The newest line of a key decides if it is live, or if no
line of the key is. -/
theorem get_load (h : IsLog text) (now : Nat) :
    ∃ c, load now (.file text.toUTF8) = .ok c ∧ ∀ key,
      (c.get now key).1 =
        (newest? key (liveEntries now (loggedEntries text))).map CacheItem.value ∧
      ((c.get now key).1 = (newest? key (loggedEntries text)).bind (fun item => item.valueAt now) ↔
        (∀ item, newest? key (loggedEntries text) = some item → now < item.expiry) ∨
          ∀ e ∈ loggedEntries text, e.1 = key → e.2.expiry ≤ now) := by
  refine ⟨_, load_of_isLog h now, fun key => ?_⟩
  have live (item : CacheItem)
      (hitem : (extend {} (liveEntries now (loggedEntries text))).find? key = some item) :
      now < item.expiry := by
    rw [find?_extend_liveEntries] at hitem
    obtain ⟨before, later, hcut, -⟩ := newest?_eq_some.mp hitem
    have hmem : (key, item) ∈ liveEntries now (loggedEntries text) := by
      rw [hcut]
      simp
    rw [← Nat.not_le, ← CacheItem.isExpired_iff]
    simpa using (List.mem_filter.mp hmem).2
  have hget := congrArg Prod.fst (get_of_live live)
  rw [find?_extend_liveEntries] at hget
  exact ⟨hget, (Eq.congr_left hget).trans newest?_liveEntries_iff⟩

/-- Three lines of one key, the last of them expired. -/
theorem get_load_three_lines :
    let c : Cache := ⟨[("k", ⟨"first", 9⟩), ("k", ⟨"second", 8⟩), ("k", ⟨"third", 7⟩)]⟩
    IsLog c.logText ∧ loggedEntries c.logText = c.entries ∧
      ∃ loaded, load 7 (.file c.logText.toUTF8) = .ok loaded ∧
        (loaded.get 7 "k").1 = some "second" := by
  intro c
  obtain ⟨isLog, hentries⟩ := isLog_logText (c := c) (by decide)
  obtain ⟨loaded, hload, hget⟩ := get_load isLog 7
  refine ⟨isLog, hentries, loaded, hload, ?_⟩
  rw [(hget "k").1, hentries]
  decide

/-- The newest line of a key is expired, and an older one is served. -/
theorem load_serves_older_line :
    let text :=
      "\x7b\"key\":\"k\",\"value\":\"old\",\"expires_at_ms\":18446744073709551615\x7d\n" ++
        "\x7b\"key\":\"k\",\"value\":\"new\",\"expires_at_ms\":0\x7d\n"
    IsLog text ∧
      (newest? "k" (loggedEntries text)).bind (fun item => item.valueAt 1700000000000) = none ∧
      ∃ c, load 1700000000000 (.file text.toUTF8) = .ok c ∧
        (c.get 1700000000000 "k").1 = some "old" := by
  intro text
  let c : Cache := ⟨[("k", ⟨"old", lastTime⟩), ("k", ⟨"new", 0⟩)]⟩
  have htext : text = c.logText := by decide +kernel
  obtain ⟨isLog, hentries⟩ := isLog_logText (c := c) (by decide)
  rw [htext]
  refine ⟨isLog, by rw [hentries]; decide, _, load_of_isLog isLog _, ?_⟩
  rw [hentries]
  decide

end LoggedCache

end TableStore
