import TableStore.Sql.Token

/-! Conditions: one comparison of a column with a literal. -/
namespace TableStore.Sql

structure Condition where
  column : String
  op : Comparison
  literal : String
deriving DecidableEq

namespace Condition

/-- A condition written without quotes around its literal. -/
def text (c : Condition) : String :=
  c.column ++ " " ++ c.op.symbol ++ " " ++ c.literal

/-- Whether a row satisfies the condition. The first column of that name counts;
a row without such a field does not satisfy it. -/
def holds (c : Condition) (header row : List String) : Bool :=
  ((header.idxOf? c.column).bind fun i => row[i]?).any fun field => c.op.holds field c.literal

def ofTokens (column op literal : Token) : Except Fault Condition :=
  match column, op.comparison?, literal.literal? with
  | .word name, some comparison, some value => .ok ⟨name, comparison, value⟩
  | .word _, some _, none => .error (.unexpectedToken "literal" literal.text)
  | .word _, none, _ => .error (.unexpectedToken "comparison operator" op.text)
  | other, _, _ => .error (.unexpectedToken "column name" other.text)

/-- The condition a text consists of: exactly three tokens and nothing else. -/
def read (text : String) : Except Fault Condition := do
  match ← Token.scan text with
  | [column, op, literal, _] => ofTokens column.token op.token literal.token
  | _ =>
    .error (.malformed ("predicate must be 'column operator literal', got '" ++ Text.trim text
      ++ "'"))

/-- Whether a row satisfies the condition a text consists of; a text that is no
condition is satisfied by no row. -/
def holdsText (text : String) (header row : List String) : Bool :=
  match read text with
  | .ok c => c.holds header row
  | .error _ => false

end Condition

end TableStore.Sql
