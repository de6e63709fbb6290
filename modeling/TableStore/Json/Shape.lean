import TableStore.Json.Printer
import TableStore.Json.Skip

/-! Reading text of a known shape: a string, a natural number of 64 bits, or a
record with named fields. A record is written as an object, whose unknown members
are passed over, or as a list of its fields in order. -/
namespace TableStore.Json

open TableStore.Text

inductive Shape where
  | text
  | natural
  | record (name : String) (fields : List (String × Shape))

/-- What was read for a shape; a record holds the fields that were there. -/
inductive Datum where
  | text (s : String)
  | natural (n : Nat)
  | record (fields : List (String × Datum))

instance : Inhabited Datum := ⟨.natural 0⟩

def Shape.title : Shape → String
  | text => "a string"
  | natural => "u64"
  | record name _ => "struct " ++ name

def Datum.fields : Datum → List (String × Datum)
  | record fields => fields
  | _ => []

def Datum.textField? (d : Datum) (name : String) : Option String :=
  match d.fields.lookup name with
  | some (text s) => some s
  | _ => none

def Datum.naturalField? (d : Datum) (name : String) : Option Nat :=
  match d.fields.lookup name with
  | some (natural n) => some n
  | _ => none

def wrongKind (found : String) (shape : Shape) (unread : List Char) : Except ReadFault α :=
  failAt (.unsuited ("invalid type: " ++ found ++ ", expected " ++ shape.title)) unread

def decimalKind (d : Decimal) : String :=
  "floating point `" ++ String.ofList d.text ++ "`"

/-- The fault for a value that does not begin as the shape demands. -/
def unfit (shape : Shape) (cs : List Char) : Except ReadFault (Datum × List Char) :=
  match cs with
  | 'n' :: rest => do
    let (_, after) ← ident .null "ull".toList rest
    wrongKind "null" shape after
  | 't' :: rest => do
    let (_, after) ← ident .null "rue".toList rest
    wrongKind "boolean `true`" shape after
  | 'f' :: rest => do
    let (_, after) ← ident .null "alse".toList rest
    wrongKind "boolean `false`" shape after
  | '"' :: rest => do
    let (s, after) ← stringRest rest
    wrongKind ("string " ++ escapeText (String.ofList s)) shape after
  | '[' :: rest => wrongKind "sequence" shape ('[' :: rest)
  | '\x7b' :: rest => wrongKind "map" shape ('\x7b' :: rest)
  | _ => do
    let (n, after) ← match cs with
      | '-' :: rest => unsignedNumber true rest
      | c :: _ => if c.isDigit then unsignedNumber false cs else failIn .noValue cs
      | [] => failIn .endInValue []
    match n with
    | .integer _ => wrongKind ("integer `" ++ String.ofList n.text ++ "`") shape after
    | .decimal d => wrongKind (decimalKind d) shape after

def natural (n : Number) (after : List Char) : Except ReadFault (Datum × List Char) :=
  let shown := String.ofList n.text
  match n with
  | .integer (.ofNat m) => .ok (.natural m, after)
  | .integer (.negSucc _) =>
    failAt (.unsuited ("invalid value: integer `" ++ shown ++ "`, expected u64")) after
  | .decimal d => wrongKind (decimalKind d) .natural after

def listEnd (cs : List Char) : Except ReadFault (List Char) :=
  match skipSpace cs with
  | [] => failIn .endInList []
  | ']' :: rest => .ok rest
  | ',' :: rest =>
    match skipSpace rest with
    | ']' :: rest => failIn .trailingComma (']' :: rest)
    | rest => failIn .trailingText rest
  | rest => failIn .trailingText rest

/-- What is unread when a record is given up after a member's name: its end is passed
over if it comes next. -/
def leaveRecord (cs : List Char) : List Char :=
  match skipSpace cs with
  | '\x7d' :: rest => rest
  | rest => rest

mutual

def datum (fuel depth : Nat) (shape : Shape) (cs : List Char) :
    Except ReadFault (Datum × List Char) :=
  match fuel with
  | 0 => failIn .tooDeep cs
  | fuel + 1 =>
    match shape, skipSpace cs with
    | _, [] => failIn .endInValue []
    | .text, '"' :: rest =>
      (stringRest rest).map fun (s, after) => (.text (String.ofList s), after)
    | .natural, '-' :: rest => do
      let (n, after) ← unsignedNumber true rest
      natural n after
    | .natural, c :: rest =>
      if c.isDigit then do
        let (n, after) ← unsignedNumber false (c :: rest)
        natural n after
      else unfit .natural (c :: rest)
    | .record _ fields, '\x7b' :: rest =>
      match depth with
      | 0 => failIn .tooDeep ('\x7b' :: rest)
      | depth + 1 =>
        (namedFields fuel depth fields true [] rest).map fun (ds, after) => (.record ds, after)
    | .record _ fields, '[' :: rest =>
      match depth with
      | 0 => failIn .tooDeep ('[' :: rest)
      | depth + 1 =>
        (listedFields fuel depth fields true rest).map fun (ds, after) => (.record ds, after)
    | shape, cs => unfit shape cs

/-- Reads the members of a record that are left; `found` holds the fields before
them. A field must not come twice. -/
def namedFields (fuel depth : Nat) (fields : List (String × Shape)) (first : Bool)
    (found : List (String × Datum)) (cs : List Char) :
    Except ReadFault (List (String × Datum) × List Char) :=
  match fuel with
  | 0 => failIn .tooDeep cs
  | fuel + 1 => do
    match ← nextMember first cs with
    | (false, after) => return (found, after)
    | (true, cs) =>
      let (name, cs) ← stringRest cs
      let name := String.ofList name
      match fields.lookup name with
      | none =>
        let cs ← skipValue (← colon cs)
        namedFields fuel depth fields false found cs
      | some shape =>
        if (found.lookup name).isSome then
          failAt (.unsuited ("duplicate field `" ++ name ++ "`")) (leaveRecord cs)
        else
          let cs ← colon cs
          let (d, cs) ← datum fuel depth shape cs
          namedFields fuel depth fields false (found ++ [(name, d)]) cs

/-- Reads the fields of a record from a list; the last ones may be left out. -/
def listedFields (fuel depth : Nat) (fields : List (String × Shape)) (first : Bool)
    (cs : List Char) : Except ReadFault (List (String × Datum) × List Char) :=
  match fuel with
  | 0 => failIn .tooDeep cs
  | fuel + 1 =>
    match fields with
    | [] => (listEnd cs).map ([], ·)
    | (name, shape) :: others => do
      match ← nextItem first cs with
      | (false, after) => return ([], after)
      | (true, cs) =>
        let (d, cs) ← datum fuel depth shape cs
        let (ds, cs) ← listedFields fuel depth others false cs
        return ((name, d) :: ds, cs)

end

def readShape (shape : Shape) (text : String) : Except ReadFault Datum := do
  let cs := text.toList
  finish (← datum (fuelFor cs + 2) maxDepth shape cs)

end TableStore.Json
