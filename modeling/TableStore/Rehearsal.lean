import TableStore.KeyValue

/-! A rehearsal of writing through: one value goes into a database and into a
cache; its cached copy has to expire while the stored one stays. -/
namespace TableStore.Rehearsal

def profileKey : String := "user:12345:profile"

def profileText : String := "best user, expired after 5 seconds"

inductive Failure where
  | step (name : String) (cause : Fault)
  | cacheDiffers (found : Option Json)
  | cacheOutlives (value : Json)
  | databaseDiffers (found : Option Json)

def foundText : Option Json → String
  | none => "None"
  | some v => "Some(" ++ v.description ++ ")"

namespace Failure

def message : Failure → String
  | step name _ => name ++ " failed"
  | cacheDiffers found => "cached value does not match: " ++ foundText found
  | cacheOutlives value => "unexpected cache hit after expiry: " ++ value.render
  | databaseDiffers found => "database value does not match: " ++ foundText found

def causes : Failure → List String
  | step _ cause => cause.message :: cause.causes
  | _ => []

end Failure

def isProfile : Option Json → Bool
  | some (.string s) => s == profileText
  | _ => false

/-- Reads the profile, which has to be there or not. -/
def read (store : KeyValueStore σ) (name : String) (state : σ)
    (accept : Option Json → Except Failure Unit) : Except Failure Unit × σ :=
  match store.get state profileKey with
  | (.error fault, state) => (.error (.step name fault), state)
  | (.ok found, state) => (accept found, state)

/-- Reads the profile from both stores after both hold it; `settle` is what the
time in between does. -/
def compare (cache database : KeyValueStore σ) (settle : σ → σ) (state : σ) :
    Except Failure Unit × σ :=
  match read cache "cache get" state fun found =>
      if isProfile found then .ok () else .error (.cacheDiffers found) with
  | (.error failure, state) => (.error failure, state)
  | (.ok (), state) =>
    match read cache "cache get" (settle state) fun
        | some value => .error (.cacheOutlives value)
        | none => .ok () with
    | (.error failure, state) => (.error failure, state)
    | (.ok (), state) =>
      read database "database get" state fun found =>
        if isProfile found then .ok () else .error (.databaseDiffers found)

def run? (cache database : KeyValueStore σ) (databaseTtl cacheTtl : Nat) (settle : σ → σ)
    (state : σ) : Option (Except Failure Unit × σ) := do
  match ← database.set state profileKey (.string profileText) databaseTtl with
  | (.error fault, state) => return (.error (.step "database set" fault), state)
  | (.ok (), state) =>
    match ← cache.set state profileKey (.string profileText) cacheTtl with
    | (.error fault, state) => return (.error (.step "cache set" fault), state)
    | (.ok (), state) => return compare cache database settle state

end TableStore.Rehearsal
