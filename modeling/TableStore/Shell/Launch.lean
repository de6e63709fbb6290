import TableStore.Settings
import TableStore.Shell.Session
import TableStore.Shell.Typed
import TableStore.Shell.Workspace

/-! Starting a shell: arguments name the root, directly or through a settings file. -/
namespace TableStore.Shell

inductive StartFault where
  | unknownArgument (argument : String)
  | directoryMissing
  | fileMissing
  | badSettings (file : String) (cause : Fault)
  | cannotOpen (path : String) (cause : Fault)

namespace StartFault

def message : StartFault → String
  | unknownArgument argument => "unknown argument '" ++ argument ++ "'"
  | directoryMissing => "--data-dir needs a directory"
  | fileMissing => "--config needs a file"
  | badSettings file _ => "failed to read config '" ++ file ++ "'"
  | cannotOpen path _ => "failed to open database at '" ++ path ++ "'"

def causes : StartFault → List String
  | badSettings _ cause => cause.message :: cause.causes
  | cannotOpen _ cause => cause.message :: cause.causes
  | _ => []

def numbered (number : Nat) : List String → List String
  | [] => []
  | cause :: rest => ("    " ++ toString number ++ ": " ++ cause) :: numbered (number + 1) rest

/-- The lines that report the fault. Several causes are numbered. -/
def report (f : StartFault) : List String :=
  let lines := match f.causes with
    | [] => []
    | [cause] => ["", "Caused by:", "    " ++ cause]
    | causes => "" :: "Caused by:" :: numbered 0 causes
  ("Error: " ++ f.message) :: lines

end StartFault

/-- The path of the root that arguments name; the last one counts. `readFile` gives
the content of a settings file. -/
def rootPath (readFile : String → Except DiskFault ByteArray) (path : String) :
    List String → Except StartFault String
  | [] => .ok path
  | ["--data-dir"] => .error .directoryMissing
  | ["--config"] => .error .fileMissing
  | "--data-dir" :: directory :: rest => rootPath readFile directory rest
  | "--config" :: file :: rest =>
    let settings := match readFile file with
      | .ok content => Settings.ofBytes content
      | .error fault => .error (.disk fault)
    match settings with
    | .ok s => rootPath readFile s.databaseDirectory rest
    | .error fault => .error (.badSettings file fault)
  | argument :: _ => .error (.unknownArgument argument)

def defaultRootPath : String :=
  ({} : Settings).databaseDirectory

structure Transcript where
  output : List Output
  code : Nat
  workspace : Workspace

/-- A database on the root at a path of the tree, with the names of its directory. The
tree gets the directories that are made for it. -/
def openIn (workspace : Workspace) (path : String) :
    Except Fault (Database × List String) × Workspace :=
  match workspace.openDirectory path with
  | (.error fault, workspace) => (.error (.disk fault), workspace)
  | (.ok names, workspace) =>
    ((Database.openAt ⟨path, workspace.place names⟩).map (·, names), workspace)

/-- Runs a shell with these arguments on lines of input as they are typed. -/
def launch (workspace : Workspace) (arguments lines : List String) : Transcript :=
  let refused (fault : StartFault) (workspace : Workspace) : Transcript :=
    ⟨fault.report.map .err, 1, workspace⟩
  match rootPath workspace.readFile defaultRootPath arguments with
  | .error fault => refused fault workspace
  | .ok path =>
    match openIn workspace path with
    | (.error fault, workspace) => refused (.cannotOpen path fault) workspace
    | (.ok (db, names), workspace) =>
      match Session.run { db } (lines.map typed) with
      | (output, s) =>
        ⟨(banner db).map .out ++ output, 0, workspace.store names s.db.root.place⟩

end TableStore.Shell
