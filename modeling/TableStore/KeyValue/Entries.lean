import TableStore.Database
import TableStore.KeyValue
import TableStore.Text.Hex

/-! A key-value store in a table with the columns `key` and `value`. Both are held
in hexadecimal digits, so that no separator can get into the file. -/
namespace TableStore.Entries

open TableStore.Text TableStore.Sql

def tableName : String := "entries"

/-- A text between quotes. Digits need no doubled quotes. -/
def quoted (digits : String) : String :=
  "'" ++ digits ++ "'"

def createText : String :=
  "CREATE TABLE " ++ tableName ++ " (key, value) WITH TYPES (string, string)"

def selectText (key : String) : String :=
  "SELECT value FROM " ++ tableName ++ " WHERE key = " ++ quoted key

def updateText (key value : String) : String :=
  "UPDATE " ++ tableName ++ " SET value = " ++ quoted value ++ " WHERE key = " ++ quoted key

def insertText (key value : String) : String :=
  "INSERT INTO " ++ tableName ++ " (key, value) VALUES (" ++ quoted key ++ ", " ++ quoted value ++
    ")"

/-- Makes the table unless it is there; none while the caller has to wait. -/
def ensureTable? (db : Database) : Option (Except Fault Unit × Database) :=
  if db.hasTable tableName then some (.ok (), db)
  else
    (db.execute? createText).map fun
      | (.ok _, db) => (.ok (), db)
      | (.error (.tableExists _), db) => (.ok (), db)
      | (.error fault, db) => (.error fault, db)

/-- The encoded value under an encoded key. A missing table holds no value. -/
def lookup (db : Database) (key : String) : Except Fault (Option String) :=
  match db.queryRow (selectText key) with
  | .ok row => .ok row.getLast?
  | .error .noRows => .ok none
  | .error (.tableNotFound _) => .ok none
  | .error fault => .error fault

def storeText (db : Database) (key value : String) : Except Fault String := do
  match ← lookup db key with
  | some _ => return updateText key value
  | none => return insertText key value

def storeEncoded (db : Database) (g : Guard) (key value : String) : Except Fault Unit × Database :=
  match (storeText db key value).bind (g.exec db) with
  | .error fault => (.error fault, g.drop db)
  | .ok db =>
    match g.commit db with
    | (.ok _, db) => (.ok (), db)
    | (.error fault, db) => (.error fault, db)

def set? (db : Database) (key : String) (value : Json) : Option (Except Fault Unit × Database) :=
  match ensureTable? db with
  | none => none
  | some (.error fault, db) => some (.error fault, db)
  | some (.ok (), db) =>
    (Guard.open? db).map fun (g, db) =>
      storeEncoded db g (Hex.encodeText key) (Hex.encodeText value.render)

def damagedEntry (reason : String) : Fault :=
  .damagedTable (tableName ++ ": value is not " ++ reason)

def decodeValue (encoded : String) : Except Fault Json :=
  match Hex.decode encoded with
  | .error fault => .error (damagedEntry ("hex encoded (" ++ fault.message ++ ")"))
  | .ok bytes =>
    match String.fromUTF8? ⟨bytes.toArray⟩ with
    | none => .error (damagedEntry "UTF-8")
    | some text => KeyValueStore.decodeValue text

def get (db : Database) (key : String) : Except Fault (Option Json) := do
  match ← lookup db (Hex.encodeText key) with
  | none => return none
  | some encoded => return some (← decodeValue encoded)

def store : KeyValueStore Database where
  set db key value _ := set? db key value
  get db key := (get db key, db)

end TableStore.Entries
