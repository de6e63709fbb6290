import TableStore.Text.Separated

/-! Paths as walks through a directory tree. -/
namespace TableStore.Shell

open TableStore.Text

inductive Step where
  | enter (name : String)
  | leave
deriving DecidableEq

/-- What follows the last step of a path: nothing, slashes, or a dot, which means the
directory that the steps lead to. -/
inductive Ending where
  | plain
  | slash
  | dot
deriving DecidableEq

/-- The steps of a path, the last one first. -/
structure Path where
  absolute : Bool
  steps : List Step
  ending : Ending
deriving DecidableEq

namespace Path

/-- A piece between slashes that is no step. -/
def isIdle (piece : String) : Bool :=
  piece = "" || piece = "."

def stepOf (piece : String) : Step :=
  if piece = ".." then .leave else .enter piece

def ofText (text : String) : Path :=
  let pieces := ((splitAt '/' text.toList).map String.ofList).reverse
  let idle := pieces.takeWhile isIdle
  { absolute := text.toList.head? = some '/'
    steps := (pieces.filter fun piece => !isIdle piece).map stepOf
    ending := if idle.contains "." then .dot else if idle.isEmpty then .plain else .slash }

end Path

end TableStore.Shell
