/-! What can go wrong, as causes. The wording of each cause is in one place, so
that no other module builds a message from an error. -/
namespace TableStore

inductive DiskFault where
  | missing
  | exists
  | notDirectory
  | isDirectory
  | nameTooLong
  | zeroInName
  | notUtf8
deriving DecidableEq

def DiskFault.message : DiskFault → String
  | .missing => "No such file or directory (os error 2)"
  | .exists => "File exists (os error 17)"
  | .notDirectory => "Not a directory (os error 20)"
  | .isDirectory => "Is a directory (os error 21)"
  | .nameTooLong => "File name too long (os error 36)"
  | .zeroInName => "file name contained an unexpected NUL byte"
  | .notUtf8 => "stream did not contain valid UTF-8"

inductive Fault where
  | unexpectedCharacter (char : Char) (position : Nat)
  | unterminatedText (position : Nat)
  | unexpectedToken (expected found : String)
  | malformed (reason : String)
  | unsupported (operation : String)
  | tableNotFound (table : String)
  | tableExists (table : String)
  | columnNotFound (column : String)
  | badTableName (name : String)
  | typeCount (columns types : Nat)
  | unknownType (name : String)
  | typeMismatch (column expected value : String)
  | valueCount (expected found : Nat)
  | separatorInValue (column value : String)
  | nothingToOrder
  | noRows
  | damagedTable (detail : String)
  | damagedLog (detail : String)
  | notJson (reason : String)
  | disk (cause : DiskFault)
  | transactionNotFound (id : Nat)
  | transactionOpen (id : Nat)
  | restoreFailed (table : String) (cause restore : Fault)
deriving DecidableEq

def Fault.message : Fault → String
  | .unexpectedCharacter c p =>
    "Lexer error: unexpected character '" ++ c.toString ++ "' at position " ++ toString p
  | .unterminatedText p =>
    "Lexer error: unterminated string literal starting at position " ++ toString p
  | .unexpectedToken expected found =>
    "Parse error: unexpected token '" ++ found ++ "', expected " ++ expected
  | .malformed reason => "Parse error: " ++ reason
  | .unsupported operation => "Unsupported operation: " ++ operation
  | .tableNotFound table => "Catalog error: table '" ++ table ++ "' not found"
  | .tableExists table => "Catalog error: table '" ++ table ++ "' already exists"
  | .columnNotFound column => "Catalog error: column '" ++ column ++ "' not found"
  | .badTableName name => "Catalog error: invalid table name '" ++ name ++ "'"
  | .typeCount columns types =>
    "Catalog error: " ++ toString columns ++ " column(s) declared with " ++ toString types
      ++ " type(s)"
  | .unknownType name => "Catalog error: unsupported column type '" ++ name ++ "'"
  | .typeMismatch column expected value =>
    "Type error: value '" ++ value ++ "' in column '" ++ column ++ "' is not a valid " ++ expected
  | .valueCount expected found =>
    "Type error: expected " ++ toString expected ++ " value(s) per row, found " ++ toString found
  | .separatorInValue column value =>
    "Type error: value '" ++ value ++ "' in column '" ++ column
      ++ "' contains a field or row separator"
  | .nothingToOrder => "Execution error: not enough rows to order"
  | .noRows => "Execution error: query returned no rows"
  | .damagedTable detail => "Storage error: corrupted table file '" ++ detail ++ "'"
  | .damagedLog detail => "Storage error: corrupted cache log - " ++ detail
  | .notJson reason => "Serialization error: " ++ reason
  | .disk cause => "I/O error: " ++ cause.message
  | .transactionNotFound id => "Transaction error: transaction " ++ toString id ++ " not found"
  | .transactionOpen id => "Transaction error: transaction " ++ toString id ++ " is still open"
  | .restoreFailed table cause restore =>
    "Transaction error: " ++ cause.message ++ "; restoring table '" ++ table
      ++ "' also failed: " ++ restore.message

def Fault.isSyntax : Fault → Bool
  | .unexpectedCharacter .. | .unterminatedText .. | .unexpectedToken .. | .malformed .. => true
  | _ => false

/-- The texts of the causes below a fault, outermost first. -/
def Fault.causes : Fault → List String
  | .notJson reason => [reason]
  | .disk cause => [cause.message]
  | _ => []

end TableStore
