import TableStore.Cache
import TableStore.Json.Shape
import TableStore.Text.Blank
import TableStore.Text.Separated

/-! The log of a cache: one JSON record for each entry, on a line of its own. Each
change of the cache replaces the log. -/
namespace TableStore

open TableStore.Text

namespace Cache

def lineText (key : String) (item : CacheItem) : List Char :=
  "\x7b\"key\":".toList ++ Json.stringText key ++ ",\"value\":".toList
    ++ Json.stringText item.value ++ ",\"expires_at_ms\":".toList
    ++ (toString item.expiry).toList ++ ['\x7d']

def logText (c : Cache) : String :=
  String.ofList (c.entries.flatMap fun (key, item) => lineText key item ++ ['\n'])

def lineShape : Json.Shape :=
  .record "LogLine" [("key", .text), ("value", .text), ("expires_at_ms", .natural)]

def required (field : String) (found : Option α) : Except String α :=
  match found with
  | some value => .ok value
  | none => .error ("missing field `" ++ field ++ "`")

def readLine (line : List Char) : Except String (String × CacheItem) :=
  let text := String.ofList line
  match Json.readShape lineShape text with
  | .error fault => .error (fault.message text)
  | .ok d => do
    let key ← required "key" (d.textField? "key")
    let value ← required "value" (d.textField? "value")
    let expiry ← required "expires_at_ms" (d.naturalField? "expires_at_ms")
    return (key, ⟨value, expiry⟩)

/-- Adds the entries on lines that start with number `number`. Blank lines count
but hold nothing, and an entry that is expired by now is passed over. -/
def readLines (now number : Nat) (c : Cache) : List (List Char) → Except Fault Cache
  | [] => .ok c
  | line :: rest =>
    if line.all isBlank then readLines now (number + 1) c rest
    else
      match readLine line with
      | .error reason => .error (.damagedLog ("line " ++ toString number ++ ": " ++ reason))
      | .ok (key, item) =>
        readLines now (number + 1) (if item.isExpired now then c else c.insert key item) rest

def ofLog (now : Nat) (text : String) : Except Fault Cache :=
  readLines now 1 {} (lines text.toList)

end Cache

/-- What stands where the log should be. -/
inductive LogPlace where
  | noDirectory
  | nothing
  | file (content : ByteArray)
  | directory

def LogPlace.write (text : String) : LogPlace → Except Fault LogPlace
  | .noDirectory => .error (.disk .missing)
  | .directory => .error (.disk .isDirectory)
  | .nothing | .file _ => .ok (.file text.toUTF8)

structure LoggedCache where
  cache : Cache := {}
  log : LogPlace

namespace LoggedCache

/-- The cache that a log holds; a log that does not exist holds nothing. -/
def load (now : Nat) (log : LogPlace) : Except Fault LoggedCache :=
  match log with
  | .noDirectory | .nothing => .ok { log }
  | .directory => .error (.disk .isDirectory)
  | .file content =>
    match String.fromUTF8? content with
    | none => .error (.disk .notUtf8)
    | some text => (Cache.ofLog now text).map fun cache => { cache, log }

/-- The cache that a log holds; one that cannot be read counts as empty. -/
def openLog (now : Nat) (log : LogPlace) : LoggedCache :=
  match load now log with
  | .ok c => c
  | .error _ => { log }

/-- Stores a value and replaces the log. The value is held in memory even if the
log cannot be written. -/
def set (c : LoggedCache) (now : Nat) (key value : String) (ttl : Nat) :
    Except Fault Unit × LoggedCache :=
  let cache := c.cache.put now key value ttl
  match c.log.write cache.logText with
  | .ok log => (.ok (), ⟨cache, log⟩)
  | .error fault => (.error fault, { c with cache })

def get (c : LoggedCache) (now : Nat) (key : String) : Option String × LoggedCache :=
  match c.cache.get now key with
  | (value, cache) => (value, { c with cache })

end LoggedCache

end TableStore
