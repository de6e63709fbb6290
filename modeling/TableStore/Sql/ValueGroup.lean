import TableStore.Fault
import TableStore.Text.Blank
import TableStore.Text.Quoted

/-! The values between the parentheses of an inserted row. Entries stand between
commas; an entry is quoted text or bare text, with padding around it. -/
namespace TableStore.Sql.ValueGroup

open TableStore.Text

/-- Characters that may stand around a value without belonging to it. -/
def isPadding (c : Char) : Bool :=
  isBlank c || c == '(' || c == ')'

def emptyValue : Fault := .malformed "empty value in VALUES group"

def unclosedQuote : Fault := .malformed "mismatched quotes in values"

def quoteAfter (text : List Char) : Fault :=
  .malformed ("unexpected quote after '" ++ String.ofList (strip isBlank text) ++ "'")

def textAfter (c : Char) (value : List Char) : Fault :=
  .malformed ("unexpected '" ++ c.toString ++ "' after quoted value '" ++ String.ofList value
    ++ "'")

def quotedEntry (cs : List Char) : Except Fault (List Char × List Char) :=
  match readQuoted cs with
  | none => .error unclosedQuote
  | some (value, after) =>
    match after.dropWhile isPadding with
    | [] => .ok (value, [])
    | c :: rest => if c = ',' then .ok (value, c :: rest) else .error (textAfter c value)

def isBare (c : Char) : Bool :=
  c != ',' && c != quoteMark

def bareEntry (cs : List Char) : Except Fault (List Char × List Char) :=
  if (cs.dropWhile isBare).head? = some quoteMark then .error (quoteAfter (cs.takeWhile isBare))
  else
    match strip isPadding (cs.takeWhile isBare) with
    | [] => .error emptyValue
    | value => .ok (value, cs.dropWhile isBare)

/-- Reads one entry and gives its value and what follows it: nothing, or a comma
and more entries. -/
def entry (cs : List Char) : Except Fault (List Char × List Char) :=
  match cs.dropWhile isPadding with
  | [] => bareEntry cs
  | c :: rest => if c = quoteMark then quotedEntry rest else bareEntry cs

theorem entry_length {cs value after : List Char} (h : entry cs = .ok (value, after)) :
    after.length ≤ cs.length := by
  have drop_le : ∀ (p : Char → Bool) (l : List Char), (l.dropWhile p).length ≤ l.length :=
    fun p l => (List.dropWhile_sublist p).length_le
  have bare : ∀ {v a}, bareEntry cs = .ok (v, a) → a.length ≤ cs.length := by
    intro v a hb
    unfold bareEntry at hb
    split at hb
    · cases hb
    · split at hb
      · cases hb
      · cases hb; exact drop_le _ _
  unfold entry at h
  split at h
  · exact bare h
  · next c rest hc =>
    split at h
    · have hrest : rest.length < cs.length := by
        have := drop_le isPadding cs
        rw [hc, List.length_cons] at this
        omega
      unfold quotedEntry at h
      split at h
      · cases h
      · next v a hq =>
        have hq := readQuoted_length hq
        split at h
        · cases h; simp
        · next d tail hd =>
          split at h
          · cases h
            have := drop_le isPadding a
            rw [hd] at this
            omega
          · cases h
    · exact bare h

def readFrom (cs : List Char) : Except Fault (List String) :=
  match _h : entry cs with
  | .error fault => .error fault
  | .ok (value, []) => .ok [String.ofList value]
  | .ok (value, _ :: rest) => (readFrom rest).map (String.ofList value :: ·)
termination_by cs.length
decreasing_by
  have := entry_length _h
  rw [List.length_cons] at this
  omega

def read (text : String) : Except Fault (List String) :=
  readFrom text.toList

end TableStore.Sql.ValueGroup
