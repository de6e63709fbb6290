import TableStore.Root
import TableStore.Shell.Path

/-! The directory tree in which a shell is started. Paths are walked step by step, so that
a step back needs the directory before it just as a step forward does. -/
namespace TableStore

open TableStore.Text TableStore.Shell

inductive Node where
  | file (content : ByteArray)
  | directory (children : List (String × Node))

instance : Inhabited Node := ⟨.directory []⟩

namespace Node

def find? (n : Node) (names : List String) : Option Node :=
  match names, n with
  | [], n => some n
  | _ :: _, .file _ => none
  | name :: rest, .directory children =>
    match children.lookup name with
    | some child => child.find? rest
    | none => none

def isDirectory (n : Node) (names : List String) : Bool :=
  match n.find? names with
  | some (.directory _) => true
  | _ => false

def children (n : Node) (names : List String) : Except DiskFault (List (String × Node)) :=
  match n.find? names with
  | some (.directory children) => .ok children
  | some (.file _) => .error .notDirectory
  | none => .error .missing

def putChild (name : String) (child : Node) (children : List (String × Node)) :
    List (String × Node) :=
  (name, child) :: children.filter fun c => c.1 != name

/-- Puts a node under some names, making the directories on the way to it. -/
def put (n : Node) (names : List String) (node : Node) : Node :=
  match names with
  | [] => node
  | name :: rest =>
    let children := match n with
      | .file _ => []
      | .directory children => children
    let child := (children.lookup name).getD (.directory [])
    .directory (putChild name (child.put rest node) children)

/-- The names to which steps lead from some names. Every step starts in a directory. -/
def walk (n : Node) (names : List String) : List Step → Except DiskFault (List String)
  | [] => .ok names
  | step :: rest => do
    let children ← n.children names
    match step with
    | .leave => n.walk names.dropLast rest
    | .enter name =>
      if !fitsFileName name then .error .nameTooLong
      else if (children.lookup name).isNone then .error .missing
      else n.walk (names ++ [name]) rest

/-- Makes the directory to which steps lead, the last step first, from some names. Only
its last step may lead to nothing, and only if the path does not end in a dot. -/
def makeDirectory (n : Node) (names : List String) (steps : List Step) (ending : Ending) :
    Except DiskFault Node := do
  match steps, ending with
  | .enter name :: before, .plain | .enter name :: before, .slash =>
    let parent ← n.walk names before.reverse
    let children ← n.children parent
    if !fitsFileName name then .error .nameTooLong
    else if (children.lookup name).isSome then .error .exists
    else return n.put (parent ++ [name]) (.directory [])
  | .leave :: before, .plain | .leave :: before, .slash =>
    let _ ← n.children (← n.walk names before.reverse)
    .error .exists
  | steps, _ =>
    let _ ← n.children (← n.walk names steps.reverse)
    .error .exists

def ensureDirectory (n : Node) (names : List String) (steps : List Step) (ending : Ending) :
    Except DiskFault Node :=
  match n.makeDirectory names steps ending with
  | .ok n => .ok n
  | .error fault =>
    match n.walk names steps.reverse with
    | .ok found => if n.isDirectory found then .ok n else .error fault
    | .error _ => .error fault

/-- Makes a directory, and those on the way to it if one of them is missing. What was
made before a fault stays. -/
def makeDirectories (n : Node) (names : List String) (steps : List Step) (ending : Ending) :
    Except DiskFault Unit × Node :=
  match steps with
  | [] => (.ok (), n)
  | step :: before =>
    let last (n : Node) : Except DiskFault Unit × Node :=
      match n.ensureDirectory names (step :: before) ending with
      | .ok n => (.ok (), n)
      | .error fault => (.error fault, n)
    match n.makeDirectory names (step :: before) ending with
    | .error .missing =>
      match n.makeDirectories names before .plain with
      | (.ok (), n) => last n
      | failed => failed
    | _ => last n

def entries : Node → List (String × Entry)
  | .file _ => []
  | .directory children => children.map fun
    | (name, .file content) => (name, .file content)
    | (name, .directory _) => (name, .directory)

/-- A directory whose files are those of a root; directories in it stay. -/
def adopt (n : Node) (d : Directory) : Node :=
  let children := match n with
    | .file _ => []
    | .directory children => children
  .directory (d.entries.map fun
    | (name, .file content) => (name, .file content)
    | (name, .directory) => (name, (children.lookup name).getD (.directory [])))

end Node

/-- A directory tree and the names of the directory in it in which a shell is started. -/
structure Workspace where
  tree : Node
  here : List String

namespace Workspace

def origin (w : Workspace) (path : Path) : List String :=
  if path.absolute then [] else w.here

def checkPath (text : String) : Except DiskFault Unit :=
  if text.toList.contains '\x00' then .error .zeroInName
  else if text = "" then .error .missing
  else if !fitsPath text then .error .nameTooLong
  else .ok ()

/-- The names of what stands at a path. A path that goes on after its last step means a
directory. -/
def locate (w : Workspace) (text : String) : Except DiskFault (List String) := do
  checkPath text
  let path := Path.ofText text
  let names ← w.tree.walk (w.origin path) path.steps.reverse
  if path.ending = .plain ∨ w.tree.isDirectory names then return names
  else .error .notDirectory

def readFile (w : Workspace) (text : String) : Except DiskFault ByteArray := do
  match w.tree.find? (← w.locate text) with
  | some (.file content) => return content
  | some (.directory _) => .error .isDirectory
  | none => .error .missing

def makeDirectories (w : Workspace) (text : String) : Except DiskFault Unit × Workspace :=
  match checkPath text with
  | .error fault => (.error fault, w)
  | .ok () =>
    let path := Path.ofText text
    match w.tree.makeDirectories (w.origin path) path.steps path.ending with
    | (result, tree) => (result, { w with tree })

/-- The names of the directory for a root, which is made if it is missing. An empty path
means the directory in which the shell is started. -/
def openDirectory (w : Workspace) (text : String) : Except DiskFault (List String) × Workspace :=
  if text = "" then (.ok w.here, w)
  else
    match w.makeDirectories text with
    | (result, w) => (result.bind fun () => w.locate text, w)

def place (w : Workspace) (names : List String) : Place :=
  match w.tree.find? names with
  | some (.directory children) => .directory (.ofList (Node.entries (.directory children)))
  | some (.file _) => .plainFile
  | none => .nothing

def store (w : Workspace) (names : List String) (place : Place) : Workspace :=
  match place, w.tree.find? names with
  | .directory d, some n => { w with tree := w.tree.put names (n.adopt d) }
  | _, _ => w

end Workspace

end TableStore
