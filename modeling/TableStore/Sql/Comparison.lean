/-! Comparisons of field texts. Every stored field is text, so the order is that
of code points also where a column holds numbers. -/
namespace TableStore.Sql

inductive Comparison where
  | eq
  | ne
  | gt
  | lt
  | ge
  | le
deriving DecidableEq

namespace Comparison

def symbol : Comparison → String
  | eq => "="
  | ne => "!="
  | gt => ">"
  | lt => "<"
  | ge => ">="
  | le => "<="

def all : List Comparison := [eq, ne, gt, lt, ge, le]

def ofSymbol? (s : String) : Option Comparison :=
  all.find? fun op => op.symbol == s

def holds (op : Comparison) (left right : String) : Bool :=
  match op with
  | eq => left == right
  | ne => left != right
  | gt => decide (right < left)
  | lt => decide (left < right)
  | ge => !decide (left < right)
  | le => !decide (right < left)

def complement : Comparison → Comparison
  | eq => ne
  | ne => eq
  | gt => le
  | lt => ge
  | ge => lt
  | le => gt

theorem holds_complement (op : Comparison) (left right : String) :
    op.complement.holds left right = !op.holds left right := by
  cases op <;> simp [complement, holds, bne]

end Comparison

end TableStore.Sql
