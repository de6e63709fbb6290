/-! Paths as texts, taken apart at slashes. -/
namespace TableStore.Text

/-- The path of `name` inside `dir`. An absolute name stands for itself, and a
slash is put between unless `dir` is empty or ends in one. -/
def joinPath (dir name : String) : String :=
  if name.toList.head? = some '/' then name
  else
    match dir.toList.getLast? with
    | none => name
    | some '/' => dir ++ name
    | some _ => dir ++ "/" ++ name

end TableStore.Text
