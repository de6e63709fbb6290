import TableStore.Proofs.Cache.Serving

/-! Changes of a cache whose log cannot be written. The log is left as it is, but the value
is held and served all the same, in place of what the key stood for before. -/
namespace TableStore

/-- Items are read alike from a time on if they are the same, or both expired by then. -/
theorem CacheItem.valueAt_eq_iff {old new : CacheItem} {now : Nat} :
    (∀ later, now ≤ later → new.valueAt later = old.valueAt later) ↔
      new = old ∨ new.expiry ≤ now ∧ old.expiry ≤ now := by
  constructor
  · intro same
    rcases Nat.lt_or_ge now old.expiry with live | expired
    · left
      obtain ⟨live', hvalue⟩ :=
        valueAt_eq_some.mp ((same now (Nat.le_refl now)).trans (valueAt_eq_some.mpr ⟨live, rfl⟩))
      -- Each of them is expired when the other is.
      have first := (same old.expiry (Nat.le_of_lt live)).trans
        (valueAt_eq_none.mpr (Nat.le_refl _))
      have second := (same new.expiry (Nat.le_of_lt live')).symm.trans
        (valueAt_eq_none.mpr (Nat.le_refl _))
      have hexpiry := Nat.le_antisymm (valueAt_eq_none.mp first) (valueAt_eq_none.mp second)
      cases new
      cases old
      rw [CacheItem.mk.injEq]
      exact ⟨hvalue, hexpiry⟩
    · have now' := (same now (Nat.le_refl now)).trans (valueAt_eq_none.mpr expired)
      exact .inr ⟨valueAt_eq_none.mp now', expired⟩
  · rintro (rfl | ⟨hnew, hold⟩) later hlater
    · rfl
    · rw [valueAt_eq_none.mpr (Nat.le_trans hnew hlater),
        valueAt_eq_none.mpr (Nat.le_trans hold hlater)]

/-- From a time on, two caches give the same answers. -/
structure Cache.AlikeFrom (now : Nat) (a b : Cache) : Prop where
  get : ∀ later key, now ≤ later → (a.get later key).1 = (b.get later key).1
  contains : ∀ key, a.contains key = b.contains key
  size : a.size = b.size

namespace Cache

variable {c : Cache} {now ttl : Nat} {key other value : String}

theorem size_put (c : Cache) (now : Nat) (key value : String) (ttl : Nat) :
    (c.put now key value ttl).size = c.size + if c.contains key then 0 else 1 := by
  have h := congrArg List.length (keys_put c now key value ttl)
  unfold keys at h
  rw [List.length_map, List.length_append, List.length_map] at h
  unfold size
  rw [h]
  split <;> rfl

theorem contains_put (c : Cache) (now : Nat) (key value : String) (ttl : Nat)
    (other : String) : (c.put now key value ttl).contains other =
      (other == key || c.contains other) := by
  unfold contains
  rw [find?_put]
  by_cases ho : other = key <;> simp [ho]

/-- Storing goes unnoticed only if it puts an item in the place of the same item, or an
expired one in the place of an expired one. -/
theorem alikeFrom_put_iff : (c.put now key value ttl).AlikeFrom now c ↔
    ∃ old, c.find? key = some old ∧ (old = ⟨value, expiryAfter now ttl⟩ ∨
      old.expiry ≤ now ∧ expiryAfter now ttl ≤ now) := by
  constructor
  · rintro ⟨get, contains, -⟩
    have held := contains key
    rw [contains_put, beq_self_eq_true, Bool.true_or] at held
    obtain ⟨old, hold⟩ := Option.isSome_iff_exists.mp held.symm
    have same : ∀ later, now ≤ later →
        (CacheItem.mk value (expiryAfter now ttl)).valueAt later = old.valueAt later := by
      intro later hlater
      have served := get later key hlater
      rwa [get_fst, get_fst, valueAt_put, if_pos rfl, valueAt, hold, Option.bind_some] at served
    refine ⟨old, hold, (CacheItem.valueAt_eq_iff.mp same).imp Eq.symm And.symm⟩
  · rintro ⟨old, hold, same⟩
    have held : c.contains key = true := by simp [contains, hold]
    refine ⟨fun later other hlater => ?_, fun other => ?_, ?_⟩
    · rw [get_fst, get_fst, valueAt_put]
      split
      · next ho =>
        rw [ho, valueAt, hold, Option.bind_some]
        exact CacheItem.valueAt_eq_iff.mpr (same.imp Eq.symm And.symm) later hlater
      · rfl
    · rw [contains_put]
      by_cases ho : other = key <;> simp [ho, held]
    · rw [size_put, if_pos held, Nat.add_zero]

end Cache

namespace LoggedCache

variable {c after : LoggedCache} {now ttl : Nat} {key value : String} {fault : Fault}

theorem set_eq_error (h : c.set now key value ttl = (.error fault, after)) :
    after.cache = c.cache.put now key value ttl ∧ after.log = c.log := by
  unfold set at h
  cases hw : c.log.write (c.cache.put now key value ttl).logText with
  | ok log => simp [hw] at h
  | error fault =>
    simp only [hw] at h
    cases h
    exact ⟨rfl, rfl⟩

/-- What a change comes to whose log could not be written. The log is as it was, but the value
is held and served until its expiry, under its key and in place of what was served there
before. The caller sees no difference only if the key stood for the same item already, or
for an expired one and the value is expired at once. -/
theorem set_refused_observed (h : c.set now key value ttl = (.error fault, after)) :
    after.log = c.log ∧
    after.cache.size = c.cache.size + (if c.cache.contains key then 0 else 1) ∧
    (∀ other, after.cache.contains other = (other == key || c.cache.contains other)) ∧
    (∀ later, (after.get later key).1 =
      if later < expiryAfter now ttl then some value else none) ∧
    (∀ later other, other ≠ key → (after.get later other).1 = (c.get later other).1) ∧
    (after.cache.AlikeFrom now c.cache ↔
      ∃ old, c.cache.find? key = some old ∧ (old = ⟨value, expiryAfter now ttl⟩ ∨
        old.expiry ≤ now ∧ expiryAfter now ttl ≤ now)) := by
  obtain ⟨hcache, hlog⟩ := set_eq_error h
  have served : ∀ later other, (after.get later other).1 =
      (c.cache.put now key value ttl).valueAt later other := by
    intro later other
    rw [← hcache]
    exact Cache.get_fst after.cache later other
  refine ⟨hlog, ?size, ?contains, ?stored, ?others, ?alike⟩
  case size => rw [hcache, Cache.size_put]
  case contains => rw [hcache]; exact Cache.contains_put _ _ _ _ _
  case stored =>
    intro later
    rw [served, Cache.valueAt_put, if_pos rfl]
    split
    · next live => exact CacheItem.valueAt_eq_some.mpr ⟨live, rfl⟩
    · next expired => exact CacheItem.valueAt_eq_none.mpr (Nat.le_of_not_lt expired)
  case others =>
    intro later other ho
    rw [served, Cache.valueAt_put, if_neg ho]
    exact (Cache.get_fst c.cache later other).symm
  case alike => rw [hcache, Cache.alikeFrom_put_iff]

/-- A value put in the place of a live one, where the log has become a directory. -/
theorem set_refused_observed_overwritten :
    (LoggedCache.mk ⟨[("k", ⟨"old", 2000⟩)]⟩ .directory).set 0 "k" "new" 1000 =
        (.error (.disk .isDirectory), ⟨⟨[("k", ⟨"new", 1000⟩)]⟩, .directory⟩) ∧
      ((LoggedCache.mk ⟨[("k", ⟨"new", 1000⟩)]⟩ .directory).get 999 "k").1 = some "new" := by
  have h : (LoggedCache.mk ⟨[("k", ⟨"old", 2000⟩)]⟩ .directory).set 0 "k" "new" 1000 =
      (.error (.disk .isDirectory), ⟨⟨[("k", ⟨"new", 1000⟩)]⟩, .directory⟩) := rfl
  have stored := (set_refused_observed h).2.2.2.1 999
  exact ⟨h, stored.trans (if_pos (by decide))⟩

/-- A value that was reported as not stored is served, where nothing was before. -/
theorem set_missing_directory_served :
    ((openLog 0 .noDirectory).set 0 "k" "v" 1000).1 = .error (.disk .missing) ∧
      ((openLog 0 .noDirectory).get 0 "k").1 = none ∧
      (((openLog 0 .noDirectory).set 0 "k" "v" 1000).2.get 0 "k").1 = some "v" ∧
      (openLog 0 .noDirectory).cache.contains "k" = false ∧
      ((openLog 0 .noDirectory).set 0 "k" "v" 1000).2.cache.contains "k" = true ∧
      (openLog 0 .noDirectory).cache.size = 0 ∧
      ((openLog 0 .noDirectory).set 0 "k" "v" 1000).2.cache.size = 1 :=
  ⟨rfl, rfl, rfl, rfl, rfl, rfl, rfl⟩

end LoggedCache

end TableStore
