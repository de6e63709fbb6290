import TableStore.Command
import TableStore.Proofs.Sql.Spelled

/-! The text of an insertion in which every value stands between quotes. Whatever is in the
values, it is read as an insertion of these rows. -/
namespace TableStore

open TableStore.Text TableStore.Sql

def quotedText (value : String) : String :=
  String.ofList (quote value.toList)

/-- The text that inserts rows, with every value between quotes. -/
def insertionText (table : String) (columns : List String) (rows : List Row) : String :=
  "INSERT INTO " ++ table ++ " (" ++ ", ".intercalate columns ++ ") VALUES " ++
    ", ".intercalate (rows.map fun row => "(" ++ ", ".intercalate (row.map quotedText) ++ ")")

namespace Sql

variable {table : String} {columns : List String} {rows : List Row} {row : Row}
  {rest : List Char}

def rowTokens (row : Row) : List Token :=
  .openParen :: (joinWith .comma (row.map fun value => [.quoted value]) ++ [.closeParen])

def rowText (row : Row) : List Char :=
  '(' :: ([',', ' '].intercalate (row.map fun value => quote value.toList) ++ [')'])

theorem spelled_row (h : row ≠ []) (rest : List Char) :
    Spelled rest (rowText row) (rowTokens row) := by
  have values : Spelled (')' :: rest)
      ([',', ' '].intercalate (row.map fun value => quote value.toList))
      (joinWith .comma (row.map fun value => [.quoted value])) := by
    apply Spelled.list h
    intro value _ more hmore
    refine Spelled.single (t := .quoted value) ?_
    rcases hmore with hmore | rfl
    · rw [Token.Ends, hmore]
      decide
    · rintro ⟨⟩
  exact .token (t := .openParen) trivial (values.append (.single (t := .closeParen) trivial))

theorem literalList_of_row (h : row ≠ []) :
    LiteralList (joinWith .comma (row.map fun value => [.quoted value])) row := by
  induction row with
  | nil => exact absurd rfl h
  | cons value row ih =>
    cases row with
    | nil => exact .one rfl
    | cons next row => exact .more rfl (ih (by simp))

theorem wordList_of_columns (h : columns ≠ []) :
    WordList (joinWith .comma (columns.map fun column => [.word column])) columns := by
  induction columns with
  | nil => exact absurd rfl h
  | cons column columns ih =>
    cases columns with
    | nil => exact .one column
    | cons next columns => exact .more column (ih (by simp))

theorem LiteralList.balanced {ts : List Token} {values : List String} (h : LiteralList ts values) :
    Balanced ts := by
  have plain {t : Token} {value : String} (literal : t.literal? = some value) :
      t ∉ [.openParen, .closeParen, .endOfText] := by
    intro hm
    simp only [List.mem_cons, List.not_mem_nil, or_false] at hm
    rcases hm with rfl | rfl | rfl <;> cases literal
  induction h with
  | one literal => exact .plain (plain literal) .nil
  | more literal tail ih => exact .plain (plain literal) (.plain (by simp) ih)

theorem group_of_tiles {text : List Char} {before gs after : List Spanned}
    (htiles : Tiles [] 0 text (before ++ (gs ++ after)))
    (h : row ≠ []) (htokens : gs.map Spanned.token = rowTokens row) : Group text gs row := by
  obtain ⟨opening, gs, rfl, hopening, hgs⟩ := List.map_eq_cons_iff.mp htokens
  obtain ⟨inner, gs, rfl, hinner, hgs⟩ := List.map_eq_append_iff.mp hgs
  obtain ⟨closing, gs, rfl, hclosing, hgs⟩ := List.map_eq_cons_iff.mp hgs
  obtain rfl := List.map_eq_nil_iff.mp hgs
  have hlist := literalList_of_row h
  rw [← hinner] at hlist
  have hcut : before ++ (opening :: (inner ++ [closing]) ++ after) =
      before ++ opening :: (inner ++ closing :: after) := by simp
  rw [hcut] at htiles
  obtain ⟨rest, hslice⟩ := htiles.slice
  exact ⟨opening, inner, closing, rfl, hopening, hlist.balanced, hclosing,
    ValueGroup.read_of_tiles hslice hlist⟩

theorem groupList_of_tiles {text : List Char} {before gs : List Spanned}
    (htiles : Tiles [] 0 text (before ++ gs)) (hne : rows ≠ []) (h : ∀ row ∈ rows, row ≠ [])
    (htokens : gs.map Spanned.token = joinWith .comma (rows.map rowTokens)) :
    GroupList text gs rows := by
  induction rows generalizing before gs with
  | nil => exact absurd rfl hne
  | cons row rows ih =>
    rw [List.forall_mem_cons] at h
    cases rows with
    | nil =>
      rw [← List.append_nil gs] at htiles
      exact .one (group_of_tiles htiles h.1 htokens)
    | cons next rows =>
      obtain ⟨first, gs, rfl, hfirst, hgs⟩ := List.map_eq_append_iff.mp htokens
      obtain ⟨comma, gs, rfl, hcomma, hgs⟩ := List.map_eq_cons_iff.mp hgs
      have hcut : before ++ (first ++ comma :: gs) = before ++ first ++ [comma] ++ gs := by simp
      exact .more (group_of_tiles htiles h.1 hfirst) hcomma
        (ih (hcut ▸ htiles) (by simp) h.2 hgs)

def insertionTokens (table : String) (columns : List String) (rows : List Row) : List Token :=
  .word "INSERT" :: .word "INTO" :: .word table :: .openParen ::
    (joinWith .comma (columns.map fun column => [.word column]) ++
      .closeParen :: .word "VALUES" :: joinWith .comma (rows.map rowTokens))

theorem spelled_columns (hne : columns ≠ []) (h : ∀ column ∈ columns, IsWord column)
    (hrest : rest.head? = some ')') :
    Spelled rest ([',', ' '].intercalate (columns.map String.toList))
      (joinWith .comma (columns.map fun column => [.word column])) := by
  apply Spelled.list hne
  intro column hcolumn more hmore
  have delimited : ∀ c ∈ more.head?, Token.isDelimiter c = true := by
    rcases hmore with hmore | rfl
    · rw [hmore]
      rintro c ⟨⟩
      decide
    · rw [hrest]
      rintro c ⟨⟩
      decide
  exact Spelled.single (t := .word column) ⟨(h column hcolumn).1, (h column hcolumn).2, delimited⟩

theorem toList_insertionText : (insertionText table columns rows).toList =
    "INSERT".toList ++ ' ' :: ("INTO".toList ++ ' ' :: (table.toList ++ ' ' :: '(' ::
      ([',', ' '].intercalate (columns.map String.toList) ++ ')' :: ' ' ::
      ("VALUES".toList ++ ' ' :: [',', ' '].intercalate (rows.map rowText))))) := by
  have hrow (row : Row) : ("(" ++ ", ".intercalate (row.map quotedText) ++ ")").toList =
      rowText row := by
    have values : (row.map quotedText).map String.toList =
        row.map fun value => quote value.toList := by
      rw [List.map_map]
      exact List.map_congr_left fun value _ => String.toList_ofList
    rw [String.toList_append, String.toList_append, String.toList_intercalate, values]
    rfl
  have hrows : (rows.map fun row => "(" ++ ", ".intercalate (row.map quotedText) ++ ")").map
      String.toList = rows.map rowText := by
    rw [List.map_map]
    exact List.map_congr_left fun row _ => hrow row
  unfold insertionText
  rw [String.toList_append, String.toList_append, String.toList_append, String.toList_append,
    String.toList_append, String.toList_intercalate, String.toList_intercalate, hrows]
  simp only [List.append_assoc]
  rfl

theorem spelled_insertionText (ht : IsWord table) (hcolumns : columns ≠ [])
    (hwords : ∀ column ∈ columns, IsWord column) (hrows : rows ≠ []) (h : ∀ row ∈ rows, row ≠ []) :
    Spelled [] (insertionText table columns rows).toList (insertionTokens table columns rows) := by
  have groups : Spelled [] ([',', ' '].intercalate (rows.map rowText))
      (joinWith .comma (rows.map rowTokens)) :=
    Spelled.list hrows fun row hrow more _ => spelled_row (h row hrow) more
  rw [toList_insertionText]
  apply Spelled.word (by decide)
  apply Spelled.word (by decide)
  apply Spelled.word ht
  apply Spelled.token (t := .openParen) trivial
  apply (spelled_columns hcolumns hwords (by rfl)).append
  apply Spelled.token (t := .closeParen) trivial
  apply Spelled.blank (by decide)
  exact Spelled.word (by decide) groups

theorem production_of_insertion {text : List Char} {us : List Spanned} (isName : IsName table)
    (hcolumns : columns ≠ []) (hrows : rows ≠ []) (h : ∀ row ∈ rows, row ≠ [])
    (htiles : Tiles [] 0 text us)
    (htokens : us.map Spanned.token = insertionTokens table columns rows) :
    Production text us { verb := .insert, table, columns, groups := rows } := by
  have hcut : insertionTokens table columns rows =
      (.word "INSERT" :: .word "INTO" :: .word table :: .openParen ::
        (joinWith .comma (columns.map fun column => [.word column]) ++
          [.closeParen, .word "VALUES"])) ++ joinWith .comma (rows.map rowTokens) := by
    simp [insertionTokens]
  rw [hcut] at htokens
  obtain ⟨ts, gs, rfl, hts, hgs⟩ := List.map_eq_append_iff.mp htokens
  exact .insert (by rfl) isName (wordList_of_columns hcolumns)
    (groupList_of_tiles htiles hrows h hgs) hts

end Sql

/-- Whatever is in the values: quotes, parentheses, semicolons, blanks or keywords. -/
theorem Command.read_insertionText {table : String} {columns : List String} {rows : List Row}
    (isName : IsName table) (hcolumns : columns ≠ []) (hwords : ∀ column ∈ columns, IsWord column)
    (hrows : rows ≠ []) (h : ∀ row ∈ rows, row ≠ []) :
    Command.read (insertionText table columns rows) = .ok (.insert table columns rows) := by
  have spelled := spelled_insertionText isName.isWord hcolumns hwords hrows h
  unfold Command.read
  rw [spelled.read fun us htiles htokens =>
    production_of_insertion isName hcolumns hrows h htiles htokens]
  rfl

def selectionText (table : String) : String :=
  "SELECT * FROM " ++ table

theorem Command.read_selectionText {table : String} (isName : IsName table) :
    Command.read (selectionText table) = .ok (.select table ["*"] none none) := by
  have named : Spelled [] table.toList [.word table] :=
    Spelled.single (t := .word table) ⟨isName.isWord.1, isName.isWord.2, nofun⟩
  have spelled : Spelled [] (selectionText table).toList
      [.word "SELECT", .word "*", .word "FROM", .word table] := by
    have htext : (selectionText table).toList = "SELECT".toList ++ ' ' :: ("*".toList ++ ' ' ::
        ("FROM".toList ++ ' ' :: table.toList)) := by
      unfold selectionText
      rw [String.toList_append]
      rfl
    rw [htext]
    exact .word (by decide) (.word (by decide) (.word (by decide) named))
  have production (us : List Spanned) (htokens : us.map Spanned.token =
      [.word "SELECT", .word "*", .word "FROM", .word table]) :
      Production (selectionText table).toList us { verb := .select, table, columns := ["*"] } :=
    .select (by rfl) isName (.one "*") .absent .absent htokens
  unfold Command.read
  rw [spelled.read fun us _ htokens => production us htokens]
  rfl

end TableStore
