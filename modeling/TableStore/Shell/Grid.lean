/-! Answers drawn as a grid of text. Every column is as wide as its widest cell,
counted in characters. -/
namespace TableStore.Grid

def widths (columns : List String) (rows : List (List String)) : List Nat :=
  rows.foldl (fun ws row => ws.zipWith (fun w cell => max w cell.length) row ++ ws.drop row.length)
    (columns.map String.length)

def blanks (n : Nat) : List Char :=
  List.replicate n ' '

/-- A cell in the middle of its column; an odd blank goes to the right. -/
def centered (width : Nat) (cell : String) : List Char :=
  let spare := width - cell.length
  blanks (spare / 2) ++ cell.toList ++ blanks (spare - spare / 2)

def flushLeft (width : Nat) (cell : String) : List Char :=
  cell.toList ++ blanks (width - cell.length)

/-- Pieces with a mark between neighbours and at both ends. -/
def fence (mark : Char) (pieces : List (List Char)) : List Char :=
  mark :: pieces.flatMap fun piece => piece ++ [mark]

def rule (ws : List Nat) : List Char :=
  fence '+' (ws.map fun w => List.replicate (w + 2) '-')

def cellLine (align : Nat → String → List Char) (ws : List Nat) (cells : List String) :
    List Char :=
  fence '|' (ws.zipWith (fun w cell => ' ' :: align w cell ++ [' ']) cells)

def countLine (rows : List (List String)) : String :=
  toString rows.length ++ " row(s) returned"

/-- The lines of a grid. Texts of more than 65535 characters are left out of account: a
cell cannot be padded to such a width. -/
def draw (columns : List String) (rows : List (List String)) : List String :=
  let ws := widths columns rows
  let line := String.ofList (rule ws)
  let body := rows.map fun row => String.ofList (cellLine flushLeft ws row)
  let bottom := if rows.isEmpty then [] else [line]
  [line, String.ofList (cellLine centered ws columns), line] ++ body ++ bottom ++ [countLine rows]

end TableStore.Grid
