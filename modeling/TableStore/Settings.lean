import TableStore.Fault
import TableStore.Json.Shape
import TableStore.Text.Path

/-! Settings: where tables and the cache are kept, and how long cached values live.
They are read from a JSON record; what it leaves out has a default. -/
namespace TableStore

open TableStore.Text

structure Settings where
  databaseDirectory : String := "./data/db/"
  cacheDirectory : String := "./data/cache/"
  cacheFile : String := "cache.log"
  cacheSeconds : Nat := 60
deriving DecidableEq

namespace Settings

def shape : Json.Shape :=
  .record "Config"
    [("path", .record "PathConfig"
        [("databaseFilePath", .text), ("cacheFilePath", .text), ("fileName", .text)]),
      ("expirationTimeCache", .natural)]

def ofDatum (d : Json.Datum) : Settings :=
  let defaults : Settings := {}
  let path := (d.fields.lookup "path").getD (.record [])
  { databaseDirectory := (path.textField? "databaseFilePath").getD defaults.databaseDirectory
    cacheDirectory := (path.textField? "cacheFilePath").getD defaults.cacheDirectory
    cacheFile := (path.textField? "fileName").getD defaults.cacheFile
    cacheSeconds := (d.naturalField? "expirationTimeCache").getD defaults.cacheSeconds }

def read (text : String) : Except Fault Settings :=
  match Json.readShape shape text with
  | .ok d => .ok (ofDatum d)
  | .error fault => .error (.notJson (fault.message text))

def ofBytes (content : ByteArray) : Except Fault Settings :=
  match String.fromUTF8? content with
  | some text => read text
  | none => .error (.disk .notUtf8)

def logPath (s : Settings) : String :=
  joinPath s.cacheDirectory s.cacheFile

def textMember (name value : String) : List Char :=
  Json.stringText name ++ ':' :: Json.stringText value

def render (s : Settings) : String :=
  String.ofList ("\x7b\"path\":\x7b".toList
    ++ textMember "databaseFilePath" s.databaseDirectory ++ ','
    :: textMember "cacheFilePath" s.cacheDirectory ++ ','
    :: textMember "fileName" s.cacheFile
    ++ "\x7d,\"expirationTimeCache\":".toList ++ (toString s.cacheSeconds).toList ++ ['\x7d'])

end Settings

end TableStore
