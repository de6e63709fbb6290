import TableStore.Table.Contents

/-! Table files: a line of column names, a line of types, and a line for each row,
each ended by a line feed. -/
namespace TableStore

open TableStore.Text

def decodeText (bytes : ByteArray) : Except Fault (List Char) :=
  match String.fromUTF8? bytes with
  | some text => .ok text.toList
  | none => .error (.disk .notUtf8)

def damaged (path reason : String) : Fault :=
  .damagedTable (path ++ ": " ++ reason)

def missingLine (path : String) : Fault :=
  damaged path "missing header or type line"

/-- The row on line `number` after the types has another number of fields than
there are columns. -/
def wrongWidth (path : String) (number found width : Nat) : Fault :=
  damaged path ("row " ++ toString number ++ " has " ++ toString found ++ " field(s), expected "
    ++ toString width)

namespace Contents

/-- Refuses contents that no file can hold: a row with the wrong number of
fields, or a field with a separator in it. -/
def check (c : Contents) : Except Fault Unit :=
  c.rows.forM fun row =>
    if row.length = c.schema.width then
      (c.schema.names.zip row).forM fun (name, value) =>
        if isStorable value then .ok () else .error (.separatorInValue name value)
    else .error (.valueCount c.schema.width row.length)

def fileLines (c : Contents) : List (List Char) :=
  c.schema.headerLine :: c.schema.typesLine :: c.rows.map fieldLine

def encode (c : Contents) : ByteArray :=
  (String.ofList (c.fileLines.flatMap fun line => line ++ ['\n'])).toUTF8

def decodeRows (path : String) (width number : Nat) : List (List Char) → Except Fault (List Row)
  | [] => .ok []
  | line :: lines =>
    let row := lineFields line
    if row.length = width then
      (decodeRows path width (number + 1) lines).map (row :: ·)
    else .error (wrongWidth path number row.length width)

def decode (path : String) (bytes : ByteArray) : Except Fault Contents := do
  match lines (← decodeText bytes) with
  | header :: types :: rest =>
    let schema ← Schema.ofLines header types
    let rows ← decodeRows path schema.width 1 rest
    return ⟨schema, rows⟩
  | _ => .error (missingLine path)

/-- The schema that a file holds. Only the first two lines are read, and only
they have to be text. -/
def decodeSchema (path : String) (bytes : ByteArray) : Except Fault Schema := do
  match byteLines bytes.data.toList with
  | header :: types :: _ =>
    let header ← decodeText ⟨header.toArray⟩
    let types ← decodeText ⟨types.toArray⟩
    Schema.ofLines header types
  | [header] =>
    let _ ← decodeText ⟨header.toArray⟩
    .error (missingLine path)
  | [] => .error (missingLine path)

end Contents

end TableStore
