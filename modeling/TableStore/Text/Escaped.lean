import TableStore.Text.Hidden

/-! Text written with escapes, so that every character of it can be seen. -/
namespace TableStore.Text

def hexNumber (n : Nat) : List Char :=
  Nat.toDigits 16 n

/-- One character with escapes; `mark` is the quote around the text. -/
def escapeChar (mark c : Char) : List Char :=
  if c = '\x00' then ['\\', '0']
  else if c = '\t' then ['\\', 't']
  else if c = '\n' then ['\\', 'n']
  else if c = '\r' then ['\\', 'r']
  else if c = '\\' then ['\\', '\\']
  else if c = mark then ['\\', mark]
  else if isHidden c then ['\\', 'u', '\x7b'] ++ hexNumber c.toNat ++ ['\x7d']
  else [c]

def escapeText (s : String) : String :=
  String.ofList ('"' :: s.toList.flatMap (escapeChar '"') ++ ['"'])

def escapeLone (c : Char) : String :=
  String.ofList ('\'' :: escapeChar '\'' c ++ ['\''])

end TableStore.Text
