import TableStore.Json
import TableStore.Text.Escaped

/-! Compact JSON text. Only quotes, backslashes and control characters are escaped. -/
namespace TableStore.Json

open TableStore.Text

def unicodeEscape (c : Char) : List Char :=
  ['\\', 'u', '0', '0', Nat.digitChar (c.toNat / 16), Nat.digitChar (c.toNat % 16)]

def stringChar (c : Char) : List Char :=
  if c = '"' then ['\\', '"']
  else if c = '\\' then ['\\', '\\']
  else if c = '\x08' then ['\\', 'b']
  else if c = '\x0c' then ['\\', 'f']
  else if c = '\n' then ['\\', 'n']
  else if c = '\r' then ['\\', 'r']
  else if c = '\t' then ['\\', 't']
  else if c.toNat < 0x20 then unicodeEscape c
  else [c]

def stringText (s : String) : List Char :=
  '"' :: s.toList.flatMap stringChar ++ ['"']

def Number.text : Number → List Char
  | .integer n => (toString n).toList
  | .decimal d => d.text

mutual

def text : Json → List Char
  | null => "null".toList
  | bool true => "true".toList
  | bool false => "false".toList
  | number n => n.text
  | string s => stringText s
  | array items => '[' :: itemsText items ++ [']']
  | object members => '\x7b' :: membersText members ++ ['\x7d']

def itemsText : List Json → List Char
  | [] => []
  | [v] => text v
  | v :: rest => text v ++ ',' :: itemsText rest

def membersText : List (String × Json) → List Char
  | [] => []
  | [(name, v)] => stringText name ++ ':' :: text v
  | (name, v) :: rest => stringText name ++ ':' :: text v ++ ',' :: membersText rest

end

def render (v : Json) : String :=
  String.ofList v.text

mutual

/-- A value with the kind of each part, for messages. -/
def description : Json → String
  | null => "Null"
  | bool true => "Bool(true)"
  | bool false => "Bool(false)"
  | number n => "Number(" ++ String.ofList n.text ++ ")"
  | string s => "String(" ++ escapeText s ++ ")"
  | array items => "Array [" ++ itemsDescription items ++ "]"
  | object members => "Object \x7b" ++ membersDescription members ++ "\x7d"

def itemsDescription : List Json → String
  | [] => ""
  | [v] => description v
  | v :: rest => description v ++ ", " ++ itemsDescription rest

def membersDescription : List (String × Json) → String
  | [] => ""
  | [(name, v)] => escapeText name ++ ": " ++ description v
  | (name, v) :: rest =>
    escapeText name ++ ": " ++ description v ++ ", " ++ membersDescription rest

end

end TableStore.Json
