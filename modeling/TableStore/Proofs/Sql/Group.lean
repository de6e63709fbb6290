import TableStore.Proofs.Sql.Grammar
import TableStore.Proofs.Sql.ValueGroup

/-! The text between two parentheses of a statement, read as values. A literal means the same
there and in an assignment. -/
namespace TableStore.Sql

/-- Each literal of a list assigned to the column at its place. -/
def assigning : List String → List Token → List Token
  | column :: _, [t] => [.word column, .operator .eq, t]
  | column :: columns, t :: separator :: ts =>
    .word column :: .operator .eq :: t :: separator :: assigning columns ts
  | _, _ => []

theorem LiteralList.assigning {columns : List String} {ts : List Token} {values : List String}
    (h : LiteralList ts values) (hlength : columns.length = values.length) :
    AssignmentList (assigning columns ts) (columns.zip values) := by
  induction h generalizing columns with
  | one literal =>
    obtain ⟨column, rfl⟩ := List.length_eq_one_iff.mp hlength
    exact .one column literal
  | more literal tail ih =>
    cases columns with
    | nil => cases hlength
    | cons column columns => exact .more column literal (ih (Nat.succ.inj hlength))

namespace ValueGroup

theorem read_of_tiles {cs rest : List Char} {pos : Nat} {ts : List Spanned} {values : List String}
    (h : Tiles rest pos cs ts) (hlist : LiteralList (ts.map Spanned.token) values) :
    read (String.ofList cs) = .ok values := by
  unfold read
  rw [String.toList_ofList]
  exact readFrom_literals hlist h

/-- Between an opening token and a parenthesis after it, the text is never refused for an open
quote, has as many values as its tokens have entries, and has the texts of its literals as
values, as they have in assignments. -/
theorem read_slice_inStep {text : String} {before inner after : List Spanned}
    {opening closing : Spanned}
    (hscan : Token.scan text = .ok (before ++ opening :: (inner ++ closing :: after)))
    (hclosing : closing.token = .closeParen) :
    let raw := String.ofList (slice text.toList opening.stop closing.start)
    read raw ≠ .error unclosedQuote ∧
    (∀ values, read raw = .ok values →
      values.length = (inner.map Spanned.token).count .comma + 1) ∧
    ∀ values, LiteralList (inner.map Spanned.token) values →
      read raw = .ok values ∧
      ∀ columns ts rest, columns.length = values.length →
        ts.map Spanned.token = assigning columns (inner.map Spanned.token) →
        Grammar.current rest ≠ .comma →
        Grammar.assignments (ts ++ rest) = .ok (columns.zip values, rest) := by
  intro raw
  obtain ⟨rest, htiles⟩ := Token.tiles_slice hscan (by rw [hclosing]; nofun)
  have hcount := readFrom_counted htiles
  have hraw : read raw = readFrom (slice text.toList opening.stop closing.start) := by
    simp [raw, read]
  rw [← hraw] at hcount
  refine ⟨?_, ?_, ?_⟩
  · intro h
    rw [h] at hcount
    exact hcount rfl
  · intro values h
    rw [h] at hcount
    exact hcount
  · intro values hlist
    refine ⟨read_of_tiles htiles hlist, fun columns ts rest hlength hts hrest => ?_⟩
    exact Grammar.assignments_eq_ok.mpr ⟨_, hlist.assigning hlength, ⟨ts, rfl, hts⟩, hrest⟩

/-- Quoted text with a quote, a comma and a parenthesis in it, after a word. -/
theorem read_slice_inStep_quoted :
    let text := "INSERT INTO t (a, b) VALUES ( c , 'd'',(' );"
    let before : List Spanned :=
      [⟨.word "INSERT", 0, 6⟩, ⟨.word "INTO", 7, 11⟩, ⟨.word "t", 12, 13⟩, ⟨.openParen, 14, 15⟩,
        ⟨.word "a", 15, 16⟩, ⟨.comma, 16, 17⟩, ⟨.word "b", 18, 19⟩, ⟨.closeParen, 19, 20⟩,
        ⟨.word "VALUES", 21, 27⟩]
    let inner : List Spanned := [⟨.word "c", 30, 31⟩, ⟨.comma, 32, 33⟩, ⟨.quoted "d',(", 34, 41⟩]
    let after : List Spanned := [⟨.semicolon, 43, 44⟩, ⟨.endOfText, 44, 44⟩]
    Token.scan text =
        .ok (before ++ ⟨.openParen, 28, 29⟩ :: (inner ++ ⟨.closeParen, 42, 43⟩ :: after)) ∧
      read (String.ofList (slice text.toList 29 42)) = .ok ["c", "d',("] := by
  intro text before inner after
  have hscan : Token.scan text =
      .ok (before ++ ⟨.openParen, 28, 29⟩ :: (inner ++ ⟨.closeParen, 42, 43⟩ :: after)) :=
    Outcome.toOption_eq_some.mp (by decide +kernel)
  have hlist : LiteralList (inner.map Spanned.token) ["c", "d',("] := .more rfl (.one rfl)
  exact ⟨hscan, ((read_slice_inStep hscan rfl).2.2 _ hlist).1⟩

end ValueGroup

end TableStore.Sql
