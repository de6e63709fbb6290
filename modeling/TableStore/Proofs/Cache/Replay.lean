import TableStore.Proofs.Cache.Serving
import TableStore.Proofs.Json.Records
import TableStore.Proofs.Text.Bytes

/-! The log of a cache read back. Every line is read as the entry it was written for, so a
log holds what is left of its cache once the expired entries are dropped. -/
namespace TableStore

open TableStore.Json TableStore.Text

namespace Cache

/-- A cache as it comes about: no key is held twice, and every expiry is a time. -/
structure Sound (c : Cache) : Prop where
  distinct : c.keys.Nodup
  inTime : ∀ e ∈ c.entries, e.2.expiry ≤ lastTime

/-- What is left of a cache once the entries are dropped that are expired by now. -/
def live (c : Cache) (now : Nat) : Cache :=
  ⟨c.entries.filter fun e => !e.2.isExpired now⟩

namespace Sound

variable {c : Cache} {now ttl : Nat} {key value : String}

theorem empty : Sound {} :=
  ⟨List.nodup_nil, nofun⟩

theorem put (h : c.Sound) (now : Nat) (key value : String) (ttl : Nat) :
    (c.put now key value ttl).Sound := by
  constructor
  · rw [keys_put]
    split
    · rw [List.append_nil]
      exact h.distinct
    · next fresh =>
      have absent : key ∉ c.keys := mt contains_iff.mpr fresh
      refine List.nodup_append.mpr ⟨h.distinct, List.pairwise_singleton _ key, ?_⟩
      rintro _ hk _ ho rfl
      rw [List.mem_singleton.mp ho] at hk
      exact absent hk
  · intro e he
    rcases mem_insertEntry he with rfl | he
    · exact Nat.min_le_right _ _
    · exact h.inTime e he

theorem filter (h : c.Sound) (p : String × CacheItem → Bool) : Sound ⟨c.entries.filter p⟩ :=
  ⟨h.distinct.sublist (List.filter_sublist.map _),
    fun e he => h.inTime e (List.mem_of_mem_filter he)⟩

theorem get (h : c.Sound) (now : Nat) (key : String) : (c.get now key).2.Sound := by
  unfold Cache.get
  cases c.find? key with
  | none => exact h
  | some item =>
    simp only
    split
    · exact h.filter _
    · exact h

end Sound

section Line

variable {key : String} {item : CacheItem}

theorem lineText_eq (key : String) (item : CacheItem) :
    lineText key item = '\x7b' :: (stringText "key" ++ ':' :: (stringText key ++
      ',' :: (stringText "value" ++ ':' :: (stringText item.value ++
      ',' :: (stringText "expires_at_ms" ++ ':' :: (Nat.toDigits 10 item.expiry ++ ['\x7d'])))))) := by
  have hkey : "\x7b\"key\":".toList = '\x7b' :: (stringText "key" ++ [':']) := by decide
  have hvalue : ",\"value\":".toList = ',' :: (stringText "value" ++ [':']) := by decide
  have hexpiry : ",\"expires_at_ms\":".toList =
      ',' :: (stringText "expires_at_ms" ++ [':']) := by decide
  have hnumber : (toString item.expiry).toList = Nat.toDigits 10 item.expiry := Nat.toList_repr
  unfold lineText
  rw [hnumber, hkey, hvalue, hexpiry]
  simp only [List.append_assoc, List.cons_append, List.nil_append]

theorem readLine_lineText (h : item.expiry ≤ lastTime) :
    readLine (lineText key item) = .ok (key, item) := by
  have fits : item.expiry < Nat.pow 2 64 := Nat.lt_of_le_of_lt h (by decide)
  have hread : readShape lineShape (String.ofList (lineText key item)) =
      .ok (.record [("key", .text key), ("value", .text item.value),
        ("expires_at_ms", .natural item.expiry)]) := by
    refine readShape_record (String.toList_ofList.trans (lineText_eq key item)) ?_
    intro fuel hfuel
    obtain ⟨fuel, rfl⟩ : ∃ k, fuel = k + 4 :=
      ⟨fuel - 4, by simp only [List.length_cons, List.length_append] at hfuel; omega⟩
    rw [namedFields_first rfl rfl (Shape.writes_text key) (endsNumber_cons (by decide) _),
      namedFields_comma rfl rfl (Shape.writes_text item.value) (endsNumber_cons (by decide) _),
      namedFields_comma rfl rfl (Shape.writes_natural fits) (endsNumber_cons (by decide) _)]
    rfl
  simp only [readLine, hread]
  rfl

theorem all_isBlank_lineText (key : String) (item : CacheItem) :
    (lineText key item).all isBlank = false := by
  rw [lineText_eq, List.all_cons]
  rfl

/-- A line is printed without line feeds and other control characters. -/
theorem ge_of_mem_lineText : ∀ c ∈ lineText key item, 0x20 ≤ c.toNat := by
  have digit : ∀ c ∈ Nat.toDigits 10 item.expiry, 0x20 ≤ c.toNat := by
    intro c hc
    have hdigit := Nat.isDigit_of_mem_toDigits (by decide) (by decide) hc
    exact Nat.le_trans (by decide) (Char.isDigit_iff_toNat.mp hdigit).1
  rw [lineText_eq]
  simp only [List.forall_mem_cons, List.forall_mem_append]
  exact ⟨by decide, ge_of_mem_stringText, by decide, ge_of_mem_stringText, by decide,
    ge_of_mem_stringText, by decide, ge_of_mem_stringText, by decide, ge_of_mem_stringText,
    by decide, digit, by decide, nofun⟩

end Line

section Log

variable {c : Cache} {entries : List (String × CacheItem)} {now later number : Nat}

/-- The lines of entries add those that are not expired, in their order. -/
theorem readLines_lineTexts (distinct : ((c.entries ++ entries).map Prod.fst).Nodup)
    (inTime : ∀ e ∈ entries, e.2.expiry ≤ lastTime) :
    readLines now number c (entries.map fun e => lineText e.1 e.2) =
      .ok ⟨c.entries ++ entries.filter fun e => !e.2.isExpired now⟩ := by
  induction entries generalizing c number with
  | nil => simp [readLines]
  | cons e entries ih =>
    obtain ⟨key, item⟩ := e
    rw [List.forall_mem_cons] at inTime
    have hcut : c.entries ++ (key, item) :: entries = c.entries ++ [(key, item)] ++ entries := by
      simp
    rw [List.map_cons, readLines, if_neg (by simp [all_isBlank_lineText]),
      readLine_lineText inTime.1]
    simp only
    by_cases expired : item.isExpired now = true
    · have shorter : ((c.entries ++ entries).map Prod.fst).Nodup := by
        refine distinct.sublist (List.Sublist.map _ ?_)
        exact (List.Sublist.refl _).append (List.sublist_cons_self _ _)
      rw [if_pos expired, ih shorter inTime.2, List.filter_cons_of_neg (by simp [expired])]
    · have fresh : key ∉ c.entries.map Prod.fst := by
        rw [List.map_append, List.nodup_append] at distinct
        intro hkey
        exact distinct.2.2 key hkey key (by simp) rfl
      have hinsert : c.insert key item = ⟨c.entries ++ [(key, item)]⟩ := by
        rw [insert, insertEntry_of_notMem fresh]
      rw [if_neg expired, hinsert, ih (by rwa [← hcut]) inTime.2,
        List.filter_cons_of_pos (by simp [expired]), List.append_assoc, List.singleton_append]

/-- Every entry is written to a line of its own, whatever its texts. -/
theorem lines_logText (c : Cache) :
    lines c.logText.toList = c.entries.map fun e => lineText e.1 e.2 := by
  have hended : c.logText.toList = endLines '\n' (c.entries.map fun e => lineText e.1 e.2) := by
    rw [logText, String.toList_ofList, endLines, List.flatMap_map]
  rw [hended]
  refine linesBy_endLines fun line hline => ?_
  obtain ⟨e, -, rfl⟩ := List.mem_map.mp hline
  constructor
  · intro hfeed
    exact absurd (ge_of_mem_lineText _ hfeed) (by decide)
  · intro hret
    exact absurd (ge_of_mem_lineText _ hret) (by decide)

/-- A log holds what is left of the cache that wrote it. -/
theorem Sound.ofLog_logText (h : c.Sound) (now : Nat) : ofLog now c.logText = .ok (c.live now) := by
  unfold ofLog
  rw [lines_logText]
  exact readLines_lineTexts h.distinct h.inTime

theorem Sound.find?_live (h : c.Sound) (now : Nat) (key : String) :
    (c.live now).find? key = (c.find? key).filter fun item => !item.isExpired now :=
  lookup_filter_snd h.distinct (fun item => !item.isExpired now) key

/-- Expired entries that are passed over would not have been served later on either. -/
theorem Sound.valueAt_live (h : c.Sound) (hlater : now ≤ later) (key : String) :
    (c.live now).valueAt later key = c.valueAt later key := by
  unfold valueAt
  rw [h.find?_live]
  cases c.find? key with
  | none => rfl
  | some item =>
    rw [Option.filter_some]
    split
    · rfl
    · next expired =>
      have passed : item.expiry ≤ now := CacheItem.isExpired_iff.mp (by simpa using expired)
      exact (CacheItem.valueAt_eq_none.mpr (Nat.le_trans passed hlater)).symm

end Log

end Cache

end TableStore
