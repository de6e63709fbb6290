import TableStore.Json.Decimal

/-! JSON values. The members of an object are sorted by name, and a name occurs
once; `Json.ofMembers` makes such objects. -/
namespace TableStore

/-- A number is an integer, or a decimal fraction if it was written as one. -/
inductive Json.Number where
  | integer (n : Int)
  | decimal (d : Json.Decimal)
deriving DecidableEq

inductive Json where
  | null
  | bool (b : Bool)
  | number (n : Json.Number)
  | string (s : String)
  | array (items : List Json)
  | object (members : List (String × Json))

namespace Json

instance : Inhabited Json := ⟨null⟩

def ofInt (n : Int) : Json := number (.integer n)

def ofNat (n : Nat) : Json := ofInt n

/-- Puts a member among sorted ones, in place of one with the same name. -/
def putMember (name : String) (value : Json) :
    List (String × Json) → List (String × Json)
  | [] => [(name, value)]
  | (other, old) :: rest =>
    if name = other then (name, value) :: rest
    else if name < other then (name, value) :: (other, old) :: rest
    else (other, old) :: putMember name value rest

/-- The object with these members; of members with one name the last counts. -/
def ofMembers (members : List (String × Json)) : Json :=
  object (members.foldl (fun sorted m => putMember m.1 m.2 sorted) [])

def member? (name : String) : Json → Option Json
  | object members => members.lookup name
  | _ => none

end Json

end TableStore
