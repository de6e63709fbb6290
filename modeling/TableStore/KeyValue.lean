import TableStore.Fault
import TableStore.Json.Printer
import TableStore.Json.Reader

/-! Stores of JSON values under text keys. -/
namespace TableStore

/-- The operations of a store whose state is part of `σ`. Storing gives nothing
while the caller has to wait for another one; a lifetime is in milliseconds, and a
store without expiry ignores it. -/
structure KeyValueStore (σ : Type) where
  set : σ → String → Json → Nat → Option (Except Fault Unit × σ)
  get : σ → String → Except Fault (Option Json) × σ

namespace KeyValueStore

def first (s : KeyValueStore α) : KeyValueStore (α × β) where
  set p key value ttl := (s.set p.1 key value ttl).map fun (r, a) => (r, (a, p.2))
  get p key := match s.get p.1 key with
    | (r, a) => (r, (a, p.2))

def second (s : KeyValueStore β) : KeyValueStore (α × β) where
  set p key value ttl := (s.set p.2 key value ttl).map fun (r, b) => (r, (p.1, b))
  get p key := match s.get p.2 key with
    | (r, b) => (r, (p.1, b))

def decodeValue (text : String) : Except Fault Json :=
  match Json.read text with
  | .ok v => .ok v
  | .error fault => .error (.notJson (fault.message text))

end KeyValueStore

end TableStore
