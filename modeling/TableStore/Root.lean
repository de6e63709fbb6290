import TableStore.Fault
import TableStore.Text.Path
import TableStore.Sql.Statement

/-! The storage root: one directory in which every table is a file. A root is a
value; what the file system would refuse, its operations refuse.

On a disk a file is replaced by way of a temporary one beside it, whose name has ten
bytes. It is no entry of a root, and only the path of the file itself is measured: the
roots that are meant are those whose full path, from the top of the tree, leaves room
for the temporary file. Where it leaves none, tables with short names can still be read,
but nothing is written, and what a failed commit noted is not put back either. -/
namespace TableStore

open TableStore.Text TableStore.Sql

inductive Entry where
  | file (content : ByteArray)
  | directory

instance : DecidableEq Entry
  | .file a, .file b =>
    match ByteArray.decEq a b with
    | isTrue h => isTrue (by rw [h])
    | isFalse h => isFalse fun e => h (by cases e; rfl)
  | .directory, .directory => isTrue rfl
  | .file _, .directory => isFalse nofun
  | .directory, .file _ => isFalse nofun

/-- The entries of a directory, in the order in which they happen to be listed. Entries
whose names are no Unicode text are left out; no file of a table has such a name. -/
structure Directory where
  entries : List (String × Entry)
  distinct : (entries.map Prod.fst).Nodup

namespace Directory

def empty : Directory := ⟨[], List.nodup_nil⟩

def find? (d : Directory) (name : String) : Option Entry :=
  d.entries.lookup name

def erase (d : Directory) (name : String) : Directory where
  entries := d.entries.filter fun e => e.1 != name
  distinct := d.distinct.sublist (List.filter_sublist.map _)

def put (d : Directory) (name : String) (entry : Entry) : Directory where
  entries := (name, entry) :: (d.erase name).entries
  distinct := by
    refine List.nodup_cons.mpr ⟨fun h => ?_, (d.erase name).distinct⟩
    obtain ⟨e, he, rfl⟩ := List.mem_map.mp h
    simp [erase] at he

def ofList (entries : List (String × Entry)) : Directory :=
  entries.foldl (fun d e => d.put e.1 e.2) empty

@[simp] theorem find?_empty (name : String) : empty.find? name = none := rfl

@[simp] theorem find?_erase (d : Directory) (name other : String) :
    (d.erase name).find? other = if other = name then none else d.find? other := by
  show (d.entries.filter fun e => e.1 != name).lookup other = _
  unfold find?
  induction d.entries with
  | nil => simp
  | cons e rest ih =>
    obtain ⟨n, entry⟩ := e
    rw [List.lookup_cons]
    by_cases hn : n = name
    · subst hn
      rw [List.filter_cons_of_neg (by simp), ih]
      by_cases ho : other = n
      · simp [ho]
      · simp [ho, beq_eq_false_iff_ne.mpr ho]
    · rw [List.filter_cons_of_pos (by simpa using hn), List.lookup_cons, ih]
      by_cases ho : other = n
      · subst ho; simp [hn]
      · simp [beq_eq_false_iff_ne.mpr ho]

@[simp] theorem find?_put (d : Directory) (name other : String) (entry : Entry) :
    (d.put name entry).find? other = if other = name then some entry else d.find? other := by
  have := find?_erase d name other
  unfold find? put at *
  by_cases ho : other = name
  · simp [ho]
  · simp only [List.lookup_cons, beq_eq_false_iff_ne.mpr ho, ho, if_false]
    simpa [ho] using this

end Directory

/-- What stands at the path of a root. -/
inductive Place where
  | nothing
  | plainFile
  | directory (entries : Directory)

/-- A directory for tables and the path by which messages name it. -/
structure Root where
  path : String
  place : Place

def fitsFileName (name : String) : Bool :=
  name.utf8ByteSize ≤ 255

def fitsPath (path : String) : Bool :=
  path.utf8ByteSize ≤ 4095

def tableExtension : String := "csv"

def tableFile (name : String) : String :=
  name ++ "." ++ tableExtension

def splitLastDot : List Char → Option (List Char × List Char)
  | [] => none
  | c :: rest =>
    match splitLastDot rest with
    | some (stem, extension) => some (c :: stem, extension)
    | none => if c = '.' then some ([], rest) else none

/-- The table that a file holds, judging by the file's name. A name that begins
with its only dot has no extension. -/
def tableOfFile? (file : String) : Option String :=
  match splitLastDot file.toList with
  | some (c :: stem, extension) =>
    let name := String.ofList (c :: stem)
    if extension = tableExtension.toList ∧ isTableName name then some name else none
  | _ => none

namespace Root

/-- Whether a name in the root can be reached: it fits, and so does the path to it. For
writing this is enough only where a temporary file fits as well. -/
def fits (r : Root) (name : String) : Bool :=
  fitsFileName name && fitsPath (joinPath r.path name)

def entry? (r : Root) (name : String) : Option Entry :=
  match r.place with
  | .directory d => if r.fits name then d.find? name else none
  | _ => none

def isFile (r : Root) (name : String) : Bool :=
  match r.entry? name with
  | some (.file _) => true
  | _ => false

def ensure (r : Root) : Except DiskFault Root :=
  match r.place with
  | .nothing => .ok { r with place := .directory .empty }
  | .plainFile => .error .exists
  | .directory _ => .ok r

def readFile (r : Root) (name : String) : Except DiskFault ByteArray :=
  match r.place with
  | .nothing => .error .missing
  | .plainFile => .error .notDirectory
  | .directory d =>
    if r.fits name then
      match d.find? name with
      | some (.file content) => .ok content
      | some .directory => .error .isDirectory
      | none => .error .missing
    else .error .nameTooLong

/-- Replaces the content of a file in one step, making the file if there is none. The
path of the root leaves room for the temporary file that this takes. -/
def writeFile (r : Root) (name : String) (content : ByteArray) : Except DiskFault Root :=
  match r.place with
  | .nothing => .error .missing
  | .plainFile => .error .notDirectory
  | .directory d =>
    if r.fits name then
      match d.find? name with
      | some .directory => .error .isDirectory
      | _ => .ok { r with place := .directory (d.put name (.file content)) }
    else .error .nameTooLong

def removeFile (r : Root) (name : String) : Except DiskFault Root :=
  match r.place with
  | .nothing => .error .missing
  | .plainFile => .error .notDirectory
  | .directory d =>
    if r.fits name then
      match d.find? name with
      | some (.file _) => .ok { r with place := .directory (d.erase name) }
      | some .directory => .error .isDirectory
      | none => .error .missing
    else .error .nameTooLong

def tablePath (r : Root) (name : String) : Except Fault String :=
  if isTableName name then .ok (joinPath r.path (tableFile name)) else .error (.badTableName name)

def hasTable (r : Root) (name : String) : Bool :=
  isTableName name && r.isFile (tableFile name)

/-- The names of the tables, in order. An empty path names no directory to list. -/
def tables (r : Root) : List String :=
  match r.place with
  | .directory d =>
    if r.path = "" then []
    else
      let names := d.entries.filterMap fun
        | (file, .file _) => if r.fits file then tableOfFile? file else none
        | (_, .directory) => none
      names.mergeSort fun a b => decide (a ≤ b)
  | _ => []

end Root

end TableStore
