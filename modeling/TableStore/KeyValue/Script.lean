import TableStore.KeyValue

/-! Key-value stores that follow a script and note the calls they get. -/
namespace TableStore

/-- What a store answers: storing may fail, and each reading takes the next reply.
Without a reply left there is no value. -/
structure Script where
  setFault : Option Fault := none
  replies : List (Except Fault (Option Json)) := []

inductive StoreCall where
  | set (store key : String) (value : Json) (ttl : Nat)
  | get (store key : String)

structure ScriptedStores where
  cache : Script
  database : Script
  calls : List StoreCall := []

namespace Script

def setReply (s : Script) : Except Fault Unit :=
  match s.setFault with
  | some fault => .error fault
  | none => .ok ()

def getReply (s : Script) : Except Fault (Option Json) × Script :=
  match s.replies with
  | reply :: rest => (reply, { s with replies := rest })
  | [] => (.ok none, s)

end Script

namespace ScriptedStores

def cacheStore : KeyValueStore ScriptedStores where
  set s key value ttl :=
    some (s.cache.setReply, { s with calls := s.calls ++ [.set "cache" key value ttl] })
  get s key :=
    match s.cache.getReply with
    | (reply, cache) => (reply, { s with cache, calls := s.calls ++ [.get "cache" key] })

def databaseStore : KeyValueStore ScriptedStores where
  set s key value ttl :=
    some (s.database.setReply, { s with calls := s.calls ++ [.set "database" key value ttl] })
  get s key :=
    match s.database.getReply with
    | (reply, database) => (reply, { s with database, calls := s.calls ++ [.get "database" key] })

end ScriptedStores

end TableStore
