import TableStore.Fault

/-! A cache whose entries expire. Times are milliseconds on a clock that the caller
reads; an entry is live until the clock reaches its expiry. -/
namespace TableStore

structure CacheItem where
  value : String
  expiry : Nat
deriving DecidableEq

def CacheItem.isExpired (item : CacheItem) (now : Nat) : Bool :=
  item.expiry ≤ now

/-- The largest time there is; longer lifetimes end there. -/
def lastTime : Nat := Nat.pow 2 64 - 1

def expiryAfter (now ttl : Nat) : Nat :=
  min (now + min ttl lastTime) lastTime

/-- Entries in the order in which their keys were first stored. -/
structure Cache where
  entries : List (String × CacheItem) := []
deriving DecidableEq

namespace Cache

/-- The item under a key, expired or not. -/
def find? (c : Cache) (key : String) : Option CacheItem :=
  c.entries.lookup key

def contains (c : Cache) (key : String) : Bool :=
  (c.find? key).isSome

def size (c : Cache) : Nat :=
  c.entries.length

/-- Puts an entry in the place of the one with the same key, or after all others. -/
def insertEntry (key : String) (item : CacheItem) :
    List (String × CacheItem) → List (String × CacheItem)
  | [] => [(key, item)]
  | (other, old) :: rest =>
    if other = key then (key, item) :: rest else (other, old) :: insertEntry key item rest

def insert (c : Cache) (key : String) (item : CacheItem) : Cache :=
  ⟨insertEntry key item c.entries⟩

def put (c : Cache) (now : Nat) (key value : String) (ttl : Nat) : Cache :=
  c.insert key ⟨value, expiryAfter now ttl⟩

def erase (c : Cache) (key : String) : Cache :=
  ⟨c.entries.filter fun e => e.1 != key⟩

/-- The live value under a key. An expired entry is dropped. -/
def get (c : Cache) (now : Nat) (key : String) : Option String × Cache :=
  match c.find? key with
  | none => (none, c)
  | some item => if item.isExpired now then (none, c.erase key) else (some item.value, c)

@[simp] theorem find?_insert (c : Cache) (key other : String) (item : CacheItem) :
    (c.insert key item).find? other = if other = key then some item else c.find? other := by
  unfold find? insert
  induction c.entries with
  | nil =>
    by_cases h : other = key
    · simp [insertEntry, h]
    · simp [insertEntry, h, List.lookup_cons, beq_eq_false_iff_ne.mpr h]
  | cons e rest ih =>
    obtain ⟨k, old⟩ := e
    simp only [insertEntry]
    split
    · next hk =>
      subst hk
      by_cases h : other = k
      · simp [h]
      · simp [h, List.lookup_cons, beq_eq_false_iff_ne.mpr h]
    · next hk =>
      simp only [List.lookup_cons] at ih ⊢
      rw [ih]
      by_cases h : other = k
      · subst h; simp [hk]
      · simp [beq_eq_false_iff_ne.mpr h]

end Cache

end TableStore
