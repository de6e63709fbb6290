import TableStore.Text.Cluster

/-! Lines as they are typed. A backspace takes back the cluster before it that is still
there. -/
namespace TableStore.Shell

open TableStore.Text

def backspace : Char := '\x08'

/-- How many bytes a backspace takes back for a cluster: its size, as far as one byte
holds it. -/
def takenSize (cluster : List Char) : Nat :=
  cluster.foldl (fun size c => size + c.utf8Size) 0 % 256

/-- What is left of a text, its last character first, when bytes are taken from its end. -/
def takeBack (size : Nat) : List Char → List Char
  | [] => []
  | c :: before => if size = 0 then c :: before else takeBack (size - c.utf8Size) before

/-- The line that typing these clusters leaves. Before them stands a text, its last
character first, and each cluster in it has a size, the last one first. -/
def typedAfter (before : List Char) (sizes : List Nat) : List (List Char) → List Char
  | [] => before.reverse
  | cluster :: rest =>
    if cluster = [backspace] then
      match sizes with
      | [] => typedAfter before [] rest
      | size :: sizes => typedAfter (takeBack size before) sizes rest
    else typedAfter (cluster.reverse ++ before) (takenSize cluster :: sizes) rest

def typed (line : String) : String :=
  String.ofList (typedAfter [] [] (Cluster.split line.toList))

end TableStore.Shell
