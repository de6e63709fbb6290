import TableStore.Fault
import TableStore.Text.Blank
import TableStore.Text.Quoted
import TableStore.Sql.Comparison

/-! The tokens of a statement and where they stand in it. Keywords are words: the
grammar, and not the scanner, knows which words mean something. -/
namespace TableStore.Sql

open TableStore.Text

inductive Token where
  | word (text : String)
  | quoted (text : String)
  | operator (op : Comparison)
  | openParen
  | closeParen
  | comma
  | semicolon
  | endOfText
deriving DecidableEq

/-- A token and the character positions where it starts and stops. -/
structure Spanned where
  token : Token
  start : Nat
  stop : Nat
deriving DecidableEq

namespace Token

/-- A token as messages show it. -/
def text : Token → String
  | word s => s
  | quoted s => "'" ++ s ++ "'"
  | operator op => op.symbol
  | openParen => "("
  | closeParen => ")"
  | comma => ","
  | semicolon => ";"
  | endOfText => "EOF"

def spelling : Token → List Char
  | quoted s => quote s.toList
  | endOfText => []
  | other => other.text.toList

def comparison? : Token → Option Comparison
  | operator op => some op
  | _ => none

/-- The value of a token that may stand for one: a word or a quoted text. -/
def literal? : Token → Option String
  | word s => some s
  | quoted s => some s
  | _ => none

def isDelimiter (c : Char) : Bool :=
  isBlank c || "(),;=<>!'".toList.contains c

/-- The tokens with a fixed spelling, a longer spelling before any that begins it. -/
def symbols : List Token :=
  [operator .le, operator .ge, operator .ne, operator .lt, operator .gt, operator .eq,
    openParen, closeParen, comma, semicolon]

def symbol? (cs : List Char) : Option Token :=
  symbols.find? fun t => t.spelling.isPrefixOf cs

def next (start : Nat) (c : Char) (rest : List Char) : Except Fault (Token × List Char) :=
  match symbol? (c :: rest) with
  | some t => .ok (t, rest.drop (t.spelling.length - 1))
  | none =>
    if c = '!' then .error (.unexpectedCharacter c start)
    else if c = quoteMark then
      match readQuoted rest with
      | some (text, after) => .ok (quoted (String.ofList text), after)
      | none => .error (.unterminatedText start)
    else
      .ok (word (String.ofList (c :: rest.takeWhile fun d => !isDelimiter d)),
        rest.dropWhile fun d => !isDelimiter d)

theorem length_dropWhile_le (p : α → Bool) (l : List α) : (l.dropWhile p).length ≤ l.length :=
  (List.dropWhile_sublist p).length_le

theorem next_length {start : Nat} {c : Char} {rest after : List Char} {t : Token}
    (h : next start c rest = .ok (t, after)) : after.length ≤ rest.length := by
  unfold next at h
  split at h
  · cases h; simp
  · split at h
    · cases h
    · split at h
      · split at h
        · next hq => cases h; exact Nat.le_of_lt (readQuoted_length hq)
        · cases h
      · cases h; exact length_dropWhile_le _ _

/-- The tokens of a text whose first character has position `pos`, with the end
of the text as the last one. -/
def scanFrom (pos : Nat) (cs : List Char) : Except Fault (List Spanned) :=
  match _hc : cs.dropWhile isBlank with
  | [] => .ok [⟨endOfText, pos + cs.length, pos + cs.length⟩]
  | c :: rest =>
    let start := pos + (cs.takeWhile isBlank).length
    match _hn : next start c rest with
    | .error fault => .error fault
    | .ok (token, after) =>
      let stop := start + token.spelling.length
      (scanFrom stop after).map (⟨token, start, stop⟩ :: ·)
termination_by cs.length
decreasing_by
  have h₁ := next_length _hn
  have h₂ := length_dropWhile_le isBlank cs
  rw [_hc, List.length_cons] at h₂
  omega

def scan (text : String) : Except Fault (List Spanned) :=
  scanFrom 0 text.toList

end Token

def slice (cs : List Char) (start stop : Nat) : List Char :=
  (cs.drop start).take (stop - start)

end TableStore.Sql
