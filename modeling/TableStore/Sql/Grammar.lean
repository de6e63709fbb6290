import TableStore.Sql.Statement
import TableStore.Sql.ValueGroup

/-! Reading statements.

    CREATE TABLE name (column, ...) WITH TYPES (type, ...)
    INSERT INTO name (column, ...) VALUES (value, ...), ...
    SELECT column, ... FROM name [WHERE condition] [ORDER BY column]
    UPDATE name SET column = value, ... [WHERE condition]
    DELETE FROM name [WHERE condition]

The verb may be spelled in any case, every other keyword only as above. The values
of an inserted row are read from the text between its parentheses. -/
namespace TableStore.Sql.Grammar

def current : List Spanned → Token
  | [] => .endOfText
  | t :: _ => t.token

def unexpected (expected : String) (ts : List Spanned) : Except Fault α :=
  .error (.unexpectedToken expected (current ts).text)

def expect (token : Token) (ts : List Spanned) : Except Fault (List Spanned) :=
  if current ts = token then .ok ts.tail else unexpected token.text ts

def keyword (word : String) (ts : List Spanned) : Except Fault (List Spanned) :=
  expect (.word word) ts

/-- Reads one word; `what` names its role in a message. -/
def word (what : String) (ts : List Spanned) : Except Fault (String × List Spanned) :=
  match current ts with
  | .word w => .ok (w, ts.tail)
  | _ => unexpected what ts

def tableName (ts : List Spanned) : Except Fault (String × List Spanned) := do
  let (name, ts) ← word "table name" ts
  if isTableName name then return (name, ts) else .error (.badTableName name)

/-- Reads words with commas between them, at least one. -/
def words (what : String) : List Spanned → Except Fault (List String × List Spanned)
  | ⟨.word w, _, _⟩ :: ⟨.comma, _, _⟩ :: ts => do
    let (ws, ts) ← words what ts
    return (w :: ws, ts)
  | ⟨.word w, _, _⟩ :: ts => .ok ([w], ts)
  | ts => unexpected what ts

def wordGroup (what : String) (ts : List Spanned) : Except Fault (List String × List Spanned) := do
  let ts ← expect .openParen ts
  let (ws, ts) ← words what ts
  let ts ← expect .closeParen ts
  return (ws, ts)

/-- Finds the parenthesis that closes a group of which `depth` inner groups are
open, and gives where it starts and the tokens after it. -/
def closing (depth : Nat) : List Spanned → Except Fault (Nat × List Spanned)
  | [] => unexpected ")" []
  | t :: ts =>
    match t.token with
    | .openParen => closing (depth + 1) ts
    | .closeParen =>
      match depth with
      | 0 => .ok (t.start, ts)
      | inner + 1 => closing inner ts
    | .endOfText => unexpected ")" (t :: ts)
    | _ => closing depth ts

theorem closing_length {depth : Nat} {ts after : List Spanned} {start : Nat}
    (h : closing depth ts = .ok (start, after)) : after.length < ts.length := by
  induction ts generalizing depth with
  | nil => cases h
  | cons t ts ih =>
    unfold closing at h
    split at h
    · exact Nat.lt_succ_of_lt (ih h)
    · split at h
      · cases h; simp
      · exact Nat.lt_succ_of_lt (ih h)
    · cases h
    · exact Nat.lt_succ_of_lt (ih h)

def groups (text : List Char) :
    List Spanned → Except Fault (List (List String) × List Spanned)
  | ⟨.openParen, _, stop⟩ :: ts =>
    match _hc : closing 0 ts with
    | .error fault => .error fault
    | .ok (start, after) => do
      let values ← ValueGroup.read (String.ofList (slice text stop start))
      match _ha : after with
      | ⟨.comma, _, _⟩ :: more =>
        let (others, ts) ← groups text more
        return (values :: others, ts)
      | _ => return ([values], after)
  | ts => unexpected "(" ts
termination_by ts => ts.length
decreasing_by
  have := closing_length _hc
  simp only [_ha, List.length_cons] at this ⊢
  omega

def assignments : List Spanned → Except Fault (List (String × String) × List Spanned)
  | ⟨.word column, _, _⟩ :: ⟨.operator .eq, _, _⟩ :: t :: ts =>
    match t.token.literal? with
    | none => unexpected "value" (t :: ts)
    | some value =>
      match ts with
      | ⟨.comma, _, _⟩ :: more => do
        let (others, ts) ← assignments more
        return ((column, value) :: others, ts)
      | _ => .ok ([(column, value)], ts)
  | [⟨.word _, _, _⟩, ⟨.operator .eq, _, _⟩] => unexpected "value" []
  | ⟨.word _, _, _⟩ :: ts => unexpected (Token.operator .eq).text ts
  | ts => unexpected "column name" ts

/-- Reads the condition, if the keyword for one comes next. It takes the three
tokens after the keyword, also where fewer are left. -/
def condition (ts : List Spanned) : Except Fault (Option Condition × List Spanned) :=
  if current ts = .word "WHERE" then do
    let c ← Condition.ofTokens (current (ts.drop 1)) (current (ts.drop 2)) (current (ts.drop 3))
    return (some c, ts.drop 4)
  else .ok (none, ts)

def order (ts : List Spanned) : Except Fault (Option String × List Spanned) :=
  if current ts = .word "ORDER" then do
    let ts ← keyword "BY" ts.tail
    let (column, ts) ← word "column name" ts
    return (some column, ts)
  else .ok (none, ts)

def create (ts : List Spanned) : Except Fault (Statement × List Spanned) := do
  let ts ← keyword "TABLE" ts
  let (table, ts) ← tableName ts
  let (columns, ts) ← wordGroup "column name" ts
  let ts ← keyword "WITH" ts
  let ts ← keyword "TYPES" ts
  let (types, ts) ← wordGroup "column type" ts
  return ({ verb := .create, table, columns, groups := [types] }, ts)

def insert (text : List Char) (ts : List Spanned) : Except Fault (Statement × List Spanned) := do
  let ts ← keyword "INTO" ts
  let (table, ts) ← tableName ts
  let (columns, ts) ← wordGroup "column name" ts
  let ts ← keyword "VALUES" ts
  let (groups, ts) ← groups text ts
  return ({ verb := .insert, table, columns, groups }, ts)

def select (ts : List Spanned) : Except Fault (Statement × List Spanned) := do
  let (columns, ts) ← words "column name" ts
  let ts ← keyword "FROM" ts
  let (table, ts) ← tableName ts
  let (condition, ts) ← condition ts
  let (order, ts) ← order ts
  return ({ verb := .select, table, columns, condition, order }, ts)

def update (ts : List Spanned) : Except Fault (Statement × List Spanned) := do
  let (table, ts) ← tableName ts
  let ts ← keyword "SET" ts
  let (pairs, ts) ← assignments ts
  let (condition, ts) ← condition ts
  let (columns, values) := pairs.unzip
  return ({ verb := .update, table, columns, groups := [values], condition }, ts)

def delete (ts : List Spanned) : Except Fault (Statement × List Spanned) := do
  let ts ← keyword "FROM" ts
  let (table, ts) ← tableName ts
  let (condition, ts) ← condition ts
  return ({ verb := .delete, table, condition }, ts)

def verb (token : Token) : Except Fault Verb :=
  match token with
  | .word w =>
    match Verb.ofWord? w with
    | some v => .ok v
    | none => .error (.unsupported w)
  | .endOfText => .error (.unsupported "empty statement")
  | other => .error (.unsupported other.text)

def body (text : List Char) (ts : List Spanned) : Verb → Except Fault (Statement × List Spanned)
  | .create => create ts
  | .insert => insert text ts
  | .select => select ts
  | .update => update ts
  | .delete => delete ts

/-- Checks that nothing but one semicolon is left. -/
def finish (ts : List Spanned) : Except Fault Unit :=
  let ts := if current ts = .semicolon then ts.tail else ts
  if current ts = .endOfText then .ok () else unexpected "end of statement" ts

end Grammar

def Statement.read (text : String) : Except Fault Statement := do
  let ts ← Token.scan text
  let verb ← Grammar.verb (Grammar.current ts)
  let (statement, ts) ← Grammar.body text.toList ts.tail verb
  Grammar.finish ts
  return statement

end TableStore.Sql
