import TableStore.Proofs.Sql.Condition

/-! Conditions written without quotes. Such a text reads back as its condition exactly if the
literal is one word; any other literal is read as what its own text spells, if that is a literal
at all. -/
namespace TableStore.Sql

open TableStore.Text

variable {rest cs : List Char} {text w : String} {ts : List Token} {t : Token}
  {c d : Condition} {s : Statement}

theorem length_le_doubleQuotes (cs : List Char) : cs.length ≤ (doubleQuotes cs).length := by
  induction cs with
  | nil => exact Nat.le_refl _
  | cons c cs ih =>
    unfold doubleQuotes
    split
    · simp only [List.length_cons]
      omega
    · exact Nat.succ_le_succ ih

theorem Spelled.isWord (h : Spelled rest cs ts) (hw : .word w ∈ ts) : IsWord w := by
  obtain ⟨us, tiles, rfl⟩ := h 0
  obtain ⟨u, hu, hword⟩ := List.mem_map.mp hw
  exact tiles.isWord hu hword

/-- Only a word stands for itself: a quoted text is shorter than its spelling. -/
theorem literal_self_iff :
    (∃ t : Token, t.literal? = some text ∧ Spelled [] text.toList [t]) ↔ IsWord text := by
  constructor
  · rintro ⟨t, value, spelled⟩
    cases t with
    | word w =>
      cases value
      exact spelled.isWord List.mem_cons_self
    | quoted w =>
      cases value
      obtain ⟨us, tiles, hmap⟩ := spelled 0
      obtain ⟨u, rfl, hu⟩ := List.map_eq_singleton_iff.mp hmap
      obtain ⟨front, back, htext, -⟩ := Tiles.append_cons_iff.mp
        (show Tiles [] 0 text.toList ([] ++ u :: []) from tiles)
      have hlength := congrArg List.length htext
      have hdoubled := length_le_doubleQuotes text.toList
      simp only [hu, Token.spelling, quote, List.length_append, List.length_cons] at hlength
      omega
    | _ => cases value
  · intro h
    have ends : (Token.word text).Ends [] := ⟨h.1, h.2, by simp⟩
    exact ⟨.word text, rfl, .single ends⟩

theorem Production.column_mem {ts : List Spanned} (h : Production cs ts s)
    (hc : s.condition = some c) : .word c.column ∈ ts.map Spanned.token := by
  have listed {ws : List Token} (filtered : WhereClause ws (some c)) : .word c.column ∈ ws := by
    obtain ⟨literal, -, rfl⟩ := whereClause_some_iff.mp filtered
    simp
  cases h with
  | create | insert => cases hc
  | select spells isName columns filtered ordered tokens =>
    obtain rfl := hc
    simp [tokens, listed filtered]
  | update spells isName assigned filtered tokens =>
    obtain rfl := hc
    simp [tokens, listed filtered]
  | delete spells isName filtered tokens =>
    obtain rfl := hc
    simp [tokens, listed filtered]

theorem Statement.isWord_column (h : Statement.read text = .ok s) (hc : s.condition = some c) :
    IsWord c.column := by
  obtain ⟨ts, ending, produced, -, spelled⟩ := spelled_of_read h
  exact spelled.isWord (List.mem_append_left _ (produced.column_mem hc))

namespace Condition

theorem isWord_column (h : read text = .ok c) : IsWord c.column := by
  obtain ⟨literal, -, spelled⟩ := read_eq_ok.mp h
  exact spelled.isWord List.mem_cons_self

/-- What comes back for a condition without quotes: its column, its operator, and the literal
that the text of its literal spells. -/
theorem read_text_eq_ok (hw : IsWord c.column) : read c.text = .ok d ↔ d.column = c.column ∧
    d.op = c.op ∧ ∃ t : Token, t.literal? = some d.literal ∧ Spelled [] c.literal.toList [t] := by
  have ends (back : List Char) : (Token.operator c.op).Ends (' ' :: back) := by
    cases c.op <;> simp [Token.Ends]
  have beginning : Spelled c.literal.toList
      (c.column.toList ++ ' ' :: (c.op.symbol.toList ++ [' '])) [.word c.column, .operator c.op] :=
    .word hw (.token (t := .operator c.op) (ends _) (.blank (by decide) (.nil _)))
  have htext : c.text.toList =
      (c.column.toList ++ ' ' :: (c.op.symbol.toList ++ [' '])) ++ c.literal.toList := by
    simp [text]
  rw [read_eq_ok, IsText, htext]
  simp only [Spelled.append_iff beginning]
  constructor
  · rintro ⟨literal, value, bs, hbs, spelled⟩
    obtain ⟨hcolumn, hop, rfl⟩ : d.column = c.column ∧ d.op = c.op ∧ [literal] = bs := by
      simpa using hbs
    exact ⟨hcolumn, hop, literal, value, spelled⟩
  · rintro ⟨hcolumn, hop, literal, value, spelled⟩
    exact ⟨literal, value, _, by rw [hcolumn, hop]; rfl, spelled⟩

/-- A condition that was read, as a text of its own or in a statement, reads back from its text
exactly if its literal is a word. Any other comes back with another literal, if at all. -/
theorem readsBack_iff (h : (∃ text, read text = .ok c) ∨
      ∃ text s, Statement.read text = .ok s ∧ s.condition = some c) :
    (read c.text = .ok c ↔ IsWord c.literal) ∧
      (¬IsWord c.literal →
        (∃ fault, read c.text = .error fault) ∨ ∃ d, read c.text = .ok d ∧ d ≠ c) ∧
      ∀ d, read c.text = .ok d ↔ d.column = c.column ∧ d.op = c.op ∧
        ∃ t : Token, t.literal? = some d.literal ∧ Spelled [] c.literal.toList [t] := by
  have hw : IsWord c.column := by
    rcases h with ⟨text, h⟩ | ⟨text, s, h, hc⟩
    · exact isWord_column h
    · exact Statement.isWord_column h hc
  have itself : read c.text = .ok c ↔ IsWord c.literal := by
    rw [read_text_eq_ok hw, literal_self_iff]
    simp
  refine ⟨itself, fun hliteral => ?_, fun d => read_text_eq_ok hw⟩
  cases hread : read c.text with
  | error fault => exact .inl ⟨fault, rfl⟩
  | ok d =>
    refine .inr ⟨d, rfl, ?_⟩
    rintro rfl
    exact hliteral (itself.mp hread)

/-- A word in a deletion, and a literal with quotes of its own, which come back as the quotes
around another literal. -/
theorem readsBack_iff_quotes :
    let c : Condition := ⟨"id", .ge, "10"⟩
    let d : Condition := ⟨"a", .eq, "'5'"⟩
    let deletion : Statement := { verb := .delete, table := "t", condition := some c }
    Statement.read "DELETE FROM t WHERE id>='10';" = .ok deletion ∧ read c.text = .ok c ∧
      read "a = '''5'''" = .ok d ∧ ¬IsWord d.literal ∧ read d.text = .ok ⟨"a", .eq, "5"⟩ ∧
      read d.text ≠ .ok d := by
  intro c d deletion
  have hdeletion : Statement.read "DELETE FROM t WHERE id>='10';" = .ok deletion :=
    Outcome.toOption_eq_some.mp (by decide +kernel)
  have hread : read "a = '''5'''" = .ok d := Outcome.toOption_eq_some.mp (by decide +kernel)
  have plain := readsBack_iff (.inr ⟨_, deletion, hdeletion, rfl⟩)
  have quotes := readsBack_iff (.inl ⟨_, hread⟩)
  have between : (Token.quoted "5").spelling = d.literal.toList := by decide
  have spelled : Spelled [] d.literal.toList [.quoted "5"] :=
    between ▸ .single (t := .quoted "5") nofun
  exact ⟨hdeletion, plain.1.mpr (by decide), hread, by decide,
    (quotes.2.2 _).mpr ⟨rfl, rfl, _, rfl, spelled⟩, mt quotes.1.mp (by decide)⟩

end Condition

end TableStore.Sql
