import TableStore.Shell.Launch

/-! The shell as a program. Around every line the root is read from the disk and what
the line changed is written back. -/
namespace TableStore.Shell

open TableStore.Text

def settingsFiles : List String → List String
  | "--config" :: file :: rest => file :: settingsFiles rest
  | _ :: rest => settingsFiles rest
  | [] => []

/-- Whether a code that the disk reports is a number, with either sign. -/
def isCode (number code : UInt32) : Bool :=
  code == number || code == 0 - number

def diskFault? : IO.Error → Option DiskFault
  | .noFileOrDirectory .. => some .missing
  | .alreadyExists .. => some .exists
  | .inappropriateType _ code _ => some (if isCode 20 code then .notDirectory else .isDirectory)
  | .invalidArgument _ code _ => if isCode 36 code then some .nameTooLong else none
  | _ => none

def attempt (action : IO α) : IO (Except DiskFault α) := do
  try return .ok (← action)
  catch fault =>
    match diskFault? fault with
    | some fault => return .error fault
    | none => throw fault

def fetch (file : String) : IO (Except DiskFault ByteArray) :=
  attempt (IO.FS.readBinFile file)

def directoryPath (path : String) : String :=
  if path.isEmpty then "." else path

def fetchEntries (path : String) : IO Place := do
  let directory ← IO.FS.realPath (directoryPath path)
  unless ← directory.isDir do return .plainFile
  let mut entries := []
  for e in ← directory.readDir do
    match (← e.path.metadata).type with
    | .dir => entries := (e.fileName, Entry.directory) :: entries
    | .file => entries := (e.fileName, Entry.file (← IO.FS.readBinFile e.path)) :: entries
    | _ => pure ()
  return .directory (.ofList entries)

def fetchPlace (path : String) : IO Place := do
  match ← attempt (fetchEntries path) with
  | .ok place => return place
  | .error _ => return .nothing

/-- Replaces the content of a file in one step. -/
def putFile (path name : String) (content : ByteArray) : IO Unit := do
  let fresh := joinPath path ("." ++ name ++ ".new")
  IO.FS.writeBinFile fresh content
  IO.FS.rename fresh (joinPath path name)

def putChanges (before after : Root) : IO Unit := do
  match after.place with
  | .directory d =>
    IO.FS.createDirAll (directoryPath after.path)
    for (name, entry) in d.entries do
      match entry with
      | .file content =>
        if before.entry? name ≠ some entry then putFile after.path name content
      | .directory => pure ()
    match before.place with
    | .directory old =>
      for (name, _) in old.entries do
        if (d.find? name).isNone then IO.FS.removeFile (joinPath after.path name)
    | _ => pure ()
  | _ => pure ()

def emit : Output → IO Unit
  | .out line => IO.println line
  | .err line => IO.eprintln line

def withoutEnd (line : String) : String :=
  String.ofList ((line.toList.reverse.dropWhile (· == '\n')).reverse)

partial def interact (input : IO.FS.Stream) (s : Session) : IO Session := do
  let line ← input.getLine
  if line.isEmpty then return s
  let root : Root := { s.db.root with place := ← fetchPlace s.db.root.path }
  let s := { s with db := { s.db with root } }
  let (output, s, goesOn) := s.step (typed (withoutEnd line))
  putChanges root s.db.root
  output.forM emit
  if goesOn then interact input s else return s

def makeDirectory (path : String) : IO (Except DiskFault Unit) := do
  match ← attempt (IO.FS.createDir (directoryPath path)) with
  | .ok () => return .ok ()
  | .error .missing => attempt (IO.FS.createDirAll (directoryPath path))
  | .error fault =>
    match ← fetchPlace path with
    | .directory _ => return .ok ()
    | _ => return .error fault

def openRoot (path : String) : IO (Except Fault Database) := do
  match ← makeDirectory path with
  | .error fault => return .error (.disk fault)
  | .ok () => return Database.openAt ⟨path, ← fetchPlace path⟩

def serve (path : String) : IO UInt32 := do
  match (← openRoot path).mapError (StartFault.cannotOpen path) with
  | .error fault =>
    fault.report.forM IO.eprintln
    return 1
  | .ok db =>
    (banner db).forM IO.println
    let s ← interact (← IO.getStdin) { db }
    s.finish.1.forM emit
    return 0

end TableStore.Shell

open TableStore TableStore.Shell in
def main (arguments : List String) : IO UInt32 := do
  let contents ← (settingsFiles arguments).mapM fun file => return (file, ← fetch file)
  let readFile (file : String) := (contents.lookup file).getD (.error .missing)
  match rootPath readFile defaultRootPath arguments with
  | .error fault =>
    fault.report.forM IO.eprintln
    return 1
  | .ok path => serve path
