import TableStore.KeyValue.Entries
import TableStore.Proofs.Sql.Insertion

/-! The statements about the table of the entries. As long as there is no quote in a key or
a value, each is read as the command that its text seems to say. -/
namespace TableStore.Entries

open TableStore.Text TableStore.Sql

def createCommand : Command :=
  .create tableName ["key", "value"] ["string", "string"]

/-- Satisfied by the rows with an encoded key. -/
def underKey (key : String) : Condition :=
  ⟨"key", .eq, key⟩

def selectCommand (key : String) : Command :=
  .select tableName ["value"] (some (underKey key)) none

def updateCommand (key value : String) : Command :=
  .update tableName [("value", value)] (some (underKey key))

def insertCommand (key value : String) : Command :=
  .insert tableName ["key", "value"] [[key, value]]

def Unquoted (text : String) : Prop :=
  quoteMark ∉ text.toList

variable {key value : String} {rest : List Char}

theorem doubleQuotes_of_notMem {cs : List Char} (h : quoteMark ∉ cs) : doubleQuotes cs = cs := by
  induction cs with
  | nil => rfl
  | cons c cs ih =>
    rw [List.mem_cons, not_or] at h
    rw [doubleQuotes, if_neg (Ne.symm h.1), ih h.2]

theorem quoted_eq (h : Unquoted value) : quoted value = quotedText value := by
  apply String.toList_inj.mp
  unfold quoted quotedText quote
  rw [String.toList_ofList, doubleQuotes_of_notMem h, String.toList_append, String.toList_append]
  rfl

theorem spelled_quoted (h : Unquoted value) (hrest : rest.head? ≠ some quoteMark) :
    Spelled rest (quoted value).toList [.quoted value] := by
  rw [quoted_eq h]
  unfold quotedText
  rw [String.toList_ofList]
  exact Spelled.single (t := .quoted value) hrest

theorem isName_tableName : IsName tableName :=
  isTableName_iff.mp (by decide)

theorem read_createText : Command.read createText = .ok createCommand :=
  Outcome.toOption_eq_some.mp (by decide +kernel)

theorem spelled_underKey (h : Unquoted key) :
    Spelled [] ("WHERE".toList ++ ' ' :: ("key".toList ++ ' ' :: '=' :: ' ' ::
      (quoted key).toList))
      [.word "WHERE", .word "key", .operator .eq, .quoted key] := by
  apply Spelled.word (by decide)
  apply Spelled.word (by decide)
  apply Spelled.token (t := .operator .eq) trivial
  apply Spelled.blank (by decide)
  exact spelled_quoted h (by decide)

theorem read_selectText (h : Unquoted key) :
    Command.read (selectText key) = .ok (selectCommand key) := by
  have htext : (selectText key).toList = "SELECT".toList ++ ' ' :: ("value".toList ++ ' ' ::
      ("FROM".toList ++ ' ' :: (tableName.toList ++ ' ' :: ("WHERE".toList ++ ' ' ::
        ("key".toList ++ ' ' :: '=' :: ' ' :: (quoted key).toList))))) := by
    unfold selectText
    rw [String.toList_append, String.toList_append, String.toList_append]
    rfl
  have spelled : Spelled [] (selectText key).toList (.word "SELECT" :: .word "value" ::
      .word "FROM" :: .word tableName ::
        [.word "WHERE", .word "key", .operator .eq, .quoted key]) := by
    rw [htext]
    apply Spelled.word (by decide)
    apply Spelled.word (by decide)
    apply Spelled.word (by decide)
    exact Spelled.word (by decide) (spelled_underKey h)
  have filtered : WhereClause [.word "WHERE", .word "key", .operator .eq, .quoted key]
      (some (underKey key)) := .given "key" .eq rfl
  have hread := spelled.read fun us _ tokens =>
    Production.select (by rfl) isName_tableName (.one "value") filtered .absent tokens
  unfold Command.read
  rw [hread]
  rfl

theorem read_updateText (hkey : Unquoted key) (hvalue : Unquoted value) :
    Command.read (updateText key value) = .ok (updateCommand key value) := by
  have htext : (updateText key value).toList = "UPDATE".toList ++ ' ' :: (tableName.toList ++
      ' ' :: ("SET".toList ++ ' ' :: ("value".toList ++ ' ' :: '=' :: ' ' ::
        ((quoted value).toList ++ ' ' :: ("WHERE".toList ++ ' ' :: ("key".toList ++ ' ' :: '=' ::
          ' ' :: (quoted key).toList)))))) := by
    unfold updateText
    simp only [String.toList_append, List.append_assoc]
    rfl
  have assigned : AssignmentList [.word "value", .operator .eq, .quoted value]
      [("value", value)] := .one "value" rfl
  have filtered : WhereClause [.word "WHERE", .word "key", .operator .eq, .quoted key]
      (some (underKey key)) := .given "key" .eq rfl
  have spelled : Spelled [] (updateText key value).toList (.word "UPDATE" :: .word tableName ::
      .word "SET" :: ([.word "value", .operator .eq, .quoted value] ++
        [.word "WHERE", .word "key", .operator .eq, .quoted key])) := by
    rw [htext]
    apply Spelled.word (by decide)
    apply Spelled.word (by decide)
    apply Spelled.word (by decide)
    apply Spelled.word (by decide)
    apply Spelled.token (t := .operator .eq) trivial
    apply Spelled.blank (by decide)
    refine Spelled.append (spelled_quoted hvalue ?_)
      (Spelled.blank (by decide) (spelled_underKey hkey))
    show some ' ' ≠ some quoteMark
    decide
  have hread := spelled.read fun us _ tokens =>
    Production.update (by rfl) isName_tableName assigned filtered tokens
  unfold Command.read
  rw [hread]
  rfl

theorem read_insertText (hkey : Unquoted key) (hvalue : Unquoted value) :
    Command.read (insertText key value) = .ok (insertCommand key value) := by
  have htext : insertText key value = insertionText tableName ["key", "value"] [[key, value]] := by
    apply String.toList_inj.mp
    rw [toList_insertionText]
    unfold insertText
    rw [quoted_eq hkey, quoted_eq hvalue]
    simp only [quotedText, rowText, String.toList_append, String.toList_ofList, List.append_assoc,
      List.cons_append, List.map_cons, List.map_nil, List.intercalate_cons_cons,
      List.intercalate_singleton]
    rfl
  rw [htext]
  exact Command.read_insertionText isName_tableName (by simp) (by decide) (by simp) (by simp)

end TableStore.Entries
