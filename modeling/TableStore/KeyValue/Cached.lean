import TableStore.KeyValue
import TableStore.Cache.Log

/-! A key-value store in a cache: values are held as JSON text. -/
namespace TableStore

structure CachedValues where
  logged : LoggedCache
  now : Nat

namespace CachedValues

def set (s : CachedValues) (key : String) (value : Json) (ttl : Nat) :
    Except Fault Unit × CachedValues :=
  match s.logged.set s.now key value.render ttl with
  | (outcome, logged) => (outcome, { s with logged })

def get (s : CachedValues) (key : String) : Except Fault (Option Json) × CachedValues :=
  match s.logged.get s.now key with
  | (none, logged) => (.ok none, { s with logged })
  | (some text, logged) => ((KeyValueStore.decodeValue text).map some, { s with logged })

def store : KeyValueStore CachedValues where
  set s key value ttl := some (s.set key value ttl)
  get := get

end CachedValues

end TableStore
