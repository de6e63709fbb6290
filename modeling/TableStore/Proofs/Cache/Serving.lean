import TableStore.Cache.Log

/-! What a cache serves. An item is served until its expiry; whether it is held after that
makes no difference to what is read. -/
namespace TableStore

/-- A lifetime ends at the latest when time does. -/
theorem expiryAfter_eq (now ttl : Nat) : expiryAfter now ttl = min (now + ttl) lastTime := by
  unfold expiryAfter
  omega

namespace CacheItem

variable {item : CacheItem} {now later : Nat}

def valueAt (item : CacheItem) (now : Nat) : Option String :=
  if item.isExpired now then none else some item.value

theorem isExpired_iff : item.isExpired now = true ↔ item.expiry ≤ now :=
  decide_eq_true_iff

theorem valueAt_eq_none : item.valueAt now = none ↔ item.expiry ≤ now := by
  rw [← isExpired_iff, valueAt]
  split <;> simp [*]

theorem valueAt_eq_some {value : String} :
    item.valueAt now = some value ↔ now < item.expiry ∧ item.value = value := by
  rw [← Nat.not_le, ← isExpired_iff, valueAt]
  split <;> simp [*]

end CacheItem

namespace Cache

variable {c : Cache} {now later ttl : Nat} {key other value : String} {item : CacheItem}

/-- The keys in the order in which they were first stored. -/
def keys (c : Cache) : List String :=
  c.entries.map Prod.fst

def valueAt (c : Cache) (now : Nat) (key : String) : Option String :=
  (c.find? key).bind fun item => item.valueAt now

theorem get_fst (c : Cache) (now : Nat) (key : String) : (c.get now key).1 = c.valueAt now key := by
  unfold get valueAt
  cases c.find? key with
  | none => rfl
  | some item =>
    simp only [Option.bind_some, CacheItem.valueAt]
    split <;> rfl

/-- Reading what is not expired is all that it does. -/
theorem get_of_live (h : ∀ item, c.find? key = some item → now < item.expiry) :
    c.get now key = ((c.find? key).map CacheItem.value, c) := by
  unfold get
  cases hf : c.find? key with
  | none => rfl
  | some item =>
    have live : ¬item.isExpired now = true := by
      rw [CacheItem.isExpired_iff, Nat.not_le]
      exact h item hf
    simp only [if_neg live]
    rfl

section Entries

variable {entries : List (String × CacheItem)}

theorem lookup_filter_fst (entries : List (String × CacheItem)) (p : String → Bool)
    (key : String) : (entries.filter fun e => p e.1).lookup key =
      if p key then entries.lookup key else none := by
  induction entries with
  | nil => simp
  | cons e entries ih =>
    obtain ⟨name, item⟩ := e
    rw [List.filter_cons, List.lookup_cons]
    by_cases hk : key = name
    · subst hk
      rw [beq_self_eq_true]
      split
      · exact List.lookup_cons_self
      · next hp => rw [ih, if_neg hp]
    · rw [beq_eq_false_iff_ne.mpr hk, ← ih]
      split
      · rw [List.lookup_cons, beq_eq_false_iff_ne.mpr hk]
      · rfl

/-- With distinct keys, what holds of an item decides whether it is found among those for
which it holds. -/
theorem lookup_filter_snd (distinct : (entries.map Prod.fst).Nodup) (p : CacheItem → Bool)
    (key : String) : (entries.filter fun e => p e.2).lookup key =
      (entries.lookup key).filter p := by
  induction entries with
  | nil => rfl
  | cons e entries ih =>
    obtain ⟨name, item⟩ := e
    rw [List.map_cons, List.nodup_cons] at distinct
    have ih := ih distinct.2
    rw [List.filter_cons, List.lookup_cons]
    by_cases hk : key = name
    · subst hk
      have absent : entries.lookup key = none := by
        rw [List.lookup_eq_none_iff]
        intro e he
        exact bne_iff_ne.mpr fun hkey => distinct.1 (List.mem_map.mpr ⟨e, he, hkey.symm⟩)
      rw [absent, Option.filter_none] at ih
      rw [beq_self_eq_true, Option.filter_some]
      split
      · exact List.lookup_cons_self
      · exact ih
    · rw [beq_eq_false_iff_ne.mpr hk, ← ih]
      split
      · rw [List.lookup_cons, beq_eq_false_iff_ne.mpr hk]
      · rfl

theorem mem_insertEntry {e : String × CacheItem} (h : e ∈ insertEntry key item entries) :
    e = (key, item) ∨ e ∈ entries := by
  induction entries with
  | nil => exact .inl (List.mem_singleton.mp h)
  | cons first entries ih =>
    unfold insertEntry at h
    split at h
    · exact (List.mem_cons.mp h).imp_right (List.mem_cons_of_mem _)
    · rcases List.mem_cons.mp h with rfl | h
      · exact .inr List.mem_cons_self
      · exact (ih h).imp_right (List.mem_cons_of_mem _)

theorem insertEntry_of_notMem (h : key ∉ entries.map Prod.fst) :
    insertEntry key item entries = entries ++ [(key, item)] := by
  induction entries with
  | nil => rfl
  | cons e entries ih =>
    rw [List.map_cons, List.mem_cons, not_or] at h
    unfold insertEntry
    rw [if_neg (Ne.symm h.1), ih h.2, List.cons_append]

theorem map_fst_insertEntry_of_mem (h : key ∈ entries.map Prod.fst) :
    (insertEntry key item entries).map Prod.fst = entries.map Prod.fst := by
  induction entries with
  | nil => cases h
  | cons e entries ih =>
    unfold insertEntry
    split
    · next he => simp [he]
    · next he =>
      rw [List.map_cons, List.mem_cons] at h
      rw [List.map_cons, List.map_cons, ih (h.resolve_left (Ne.symm he))]

end Entries

theorem contains_iff : c.contains key = true ↔ key ∈ c.keys := by
  unfold contains find? keys
  rw [List.lookup_isSome_iff, List.mem_map]
  simp only [beq_iff_eq]
  exact exists_congr fun e => and_congr_right fun _ => eq_comm

@[simp] theorem find?_erase (c : Cache) (key other : String) :
    (c.erase key).find? other = if other = key then none else c.find? other := by
  have h := lookup_filter_fst c.entries (fun k => k != key) other
  by_cases ho : other = key
  · rw [if_neg (by simp [ho])] at h
    rwa [if_pos ho]
  · rw [if_pos (by simp [ho])] at h
    rwa [if_neg ho]

@[simp] theorem find?_put (c : Cache) (now : Nat) (key value : String) (ttl : Nat)
    (other : String) : (c.put now key value ttl).find? other =
      if other = key then some ⟨value, expiryAfter now ttl⟩ else c.find? other :=
  find?_insert c key other _

theorem valueAt_put (c : Cache) (now : Nat) (key value : String) (ttl later : Nat)
    (other : String) : (c.put now key value ttl).valueAt later other =
      if other = key then (CacheItem.mk value (expiryAfter now ttl)).valueAt later
      else c.valueAt later other := by
  unfold valueAt
  rw [find?_put]
  split <;> rfl

theorem keys_put (c : Cache) (now : Nat) (key value : String) (ttl : Nat) :
    (c.put now key value ttl).keys = c.keys ++ if c.contains key then [] else [key] := by
  unfold put insert keys
  by_cases h : c.contains key = true
  · rw [if_pos h, List.append_nil, map_fst_insertEntry_of_mem (contains_iff.mp h)]
  · rw [if_neg h, insertEntry_of_notMem (mt contains_iff.mpr h), List.map_append]
    rfl

/-- Reading drops nothing that could be read later. -/
theorem valueAt_get (c : Cache) (key other : String) (h : now ≤ later) :
    (c.get now key).2.valueAt later other = c.valueAt later other := by
  unfold get
  cases hf : c.find? key with
  | none => rfl
  | some item =>
    simp only
    split
    · next hexpired =>
      unfold valueAt
      rw [find?_erase]
      by_cases ho : other = key
      · subst ho
        have passed := Nat.le_trans (CacheItem.isExpired_iff.mp hexpired) h
        rw [if_pos rfl, hf, Option.bind_none, Option.bind_some,
          CacheItem.valueAt_eq_none.mpr passed]
      · rw [if_neg ho]
    · rfl

end Cache

end TableStore
