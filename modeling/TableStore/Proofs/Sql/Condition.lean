import TableStore.Proofs.Sql.Composition

/-! Conditions as texts of their own. What is read as a condition is what may stand at the end of
a deletion, where a semicolon may follow it. -/
namespace TableStore.Sql

open TableStore.Text

/-- A text that is one comparison: a column, an operator and a literal, and nothing else. -/
def Condition.IsText (c : Condition) (text : String) : Prop :=
  ∃ literal : Token, literal.literal? = some c.literal ∧
    Spelled [] text.toList [.word c.column, .operator c.op, literal]

/-- A text whose last token is a semicolon, and what is left of it without this token. -/
def WithoutSemicolon (text rest : String) : Prop :=
  ∃ ts semicolon last, Token.scan text = .ok (ts ++ [semicolon, last]) ∧
    semicolon.token = .semicolon ∧
    rest.toList = text.toList.take semicolon.start ++ text.toList.drop semicolon.stop

variable {text x : String} {c : Condition} {s : Statement} {tokens ws : List Token}

theorem whereClause_some_iff : WhereClause ws (some c) ↔ ∃ literal : Token,
    literal.literal? = some c.literal ∧
      ws = [.word "WHERE", .word c.column, .operator c.op, literal] := by
  constructor
  · rintro ⟨⟩
    exact ⟨_, by assumption, rfl⟩
  · rintro ⟨literal, value, rfl⟩
    exact .given c.column c.op value

namespace Condition

theorem read_eq_ok : read text = .ok c ↔ c.IsText text := by
  unfold read IsText
  simp only [Outcome.bind_eq_ok, Spelled.iff_scan]
  constructor
  · rintro ⟨ts, hscan, h⟩
    obtain ⟨us, -, rfl⟩ := Token.scan_eq_ok.mp hscan
    split at h
    · next a b d last hts =>
      obtain ⟨rfl, -⟩ := List.append_inj' (show us ++ [_] = [a, b, d] ++ [last] from hts) rfl
      obtain ⟨ha, hb, hd⟩ := Grammar.ofTokens_eq_ok.mp h
      exact ⟨d.token, hd, _, hscan, by simp [ha, hb, Spanned.last]⟩
    · cases h
  · rintro ⟨literal, value, ts, hscan, hmap⟩
    obtain ⟨a, ts, rfl, ha, hts⟩ := List.map_eq_cons_iff.mp hmap
    obtain ⟨b, ts, rfl, hb, hts⟩ := List.map_eq_cons_iff.mp hts
    obtain ⟨d, ts, rfl, hd, hts⟩ := List.map_eq_cons_iff.mp hts
    obtain ⟨last, rfl, -⟩ := List.map_eq_singleton_iff.mp hts
    exact ⟨_, hscan, Grammar.ofTokens_eq_ok.mpr ⟨ha, hb, hd ▸ value⟩⟩

end Condition

/-- A semicolon behind some tokens can be taken out of the text, which leaves these tokens. -/
theorem spelled_semicolon_iff : Spelled [] text.toList (tokens ++ [.semicolon]) ↔
    ∃ rest, WithoutSemicolon text rest ∧ Spelled [] rest.toList tokens := by
  constructor
  · intro h
    obtain ⟨us, hscan, tiles, hmap⟩ := h.scan
    obtain ⟨ts, vs, rfl, rfl, hvs⟩ := List.map_eq_append_iff.mp hmap
    obtain ⟨semicolon, rfl, hs⟩ := List.map_eq_singleton_iff.mp hvs
    rw [List.append_assoc] at hscan
    refine ⟨String.ofList _, ⟨ts, semicolon, _, hscan, hs, String.toList_ofList⟩, fun pos => ?_⟩
    rw [String.toList_ofList]
    exact tiles.without_last.shift pos
  · rintro ⟨rest, ⟨ts, semicolon, last, hscan, hs, hrest⟩, h⟩
    obtain ⟨us, tiles, hus⟩ := Token.scan_eq_ok.mp hscan
    rw [List.append_cons] at hus
    obtain ⟨rfl, -⟩ := List.append_inj' hus rfl
    have left : Spelled [] rest.toList (ts.map Spanned.token) := by
      intro pos
      rw [hrest]
      exact tiles.without_last.shift pos
    rw [h.unique left]
    intro pos
    obtain ⟨vs, hvs, hmap⟩ := tiles.shift pos
    exact ⟨vs, hvs, by rw [hmap, List.map_append, List.map_singleton, hs]⟩

theorem Verb.spells_keyword (v : Verb) : v.Spells v.keyword :=
  Verb.ofWord?_eq_some.mp (Verb.ofWord?_keyword v)

/-- A statement whose first word is a verb has this verb. -/
theorem Production.verb_eq {cs : List Char} {ts : List Spanned} {ending : List Token} {v : Verb}
    (h : Production cs ts s)
    (hts : ts.map Spanned.token ++ ending = .word v.keyword :: tokens) : s.verb = v := by
  obtain ⟨u, us, w, rfl, hu, spells⟩ := h.head
  rw [List.map_cons, hu, List.cons_append, List.cons.injEq, Token.word.injEq] at hts
  rw [hts.1, ← Verb.ofWord?_eq_some, Verb.ofWord?_keyword] at spells
  exact (Option.some.inj spells).symm

theorem Production.tokens_of_delete {cs : List Char} {ts : List Spanned} (h : Production cs ts s)
    (hv : s.verb = .delete) (hc : s.condition = some c) : ∃ verb name literal,
      ts.map Spanned.token = [.word verb, .word "FROM", .word name, .word "WHERE",
        .word c.column, .operator c.op, literal] ∧ literal.literal? = some c.literal := by
  cases h with
  | create | insert | select | update => cases hv
  | @delete _ verb name _ _ spells isName filtered tokens =>
    obtain rfl := hc
    obtain ⟨literal, value, rfl⟩ := whereClause_some_iff.mp filtered
    exact ⟨verb, name, literal, tokens, value⟩

namespace Statement

/-- A statement is one of the productions, and behind it a semicolon or nothing. -/
theorem spelled_of_read (h : read text = .ok s) : ∃ ts ending, Production text.toList ts s ∧
    (ending = [] ∨ ending = [.semicolon]) ∧
    Spelled [] text.toList (ts.map Spanned.token ++ ending) := by
  obtain ⟨ts, ending, hscan, hending, produced⟩ := read_eq_ok.mp h
  have spelled {as : List Token} (has : ending.map Spanned.token = as ++ [.endOfText]) :
      Spelled [] text.toList (ts.map Spanned.token ++ as) :=
    Spelled.iff_scan.mpr ⟨_, hscan, by rw [List.map_append, has, List.append_assoc]⟩
  rcases hending with hending | hending
  · exact ⟨ts, [], produced, .inl rfl, spelled hending⟩
  · exact ⟨ts, [.semicolon], produced, .inr rfl, spelled hending⟩

theorem read_of_spelled {ending : List Token} (hending : ending = [] ∨ ending = [.semicolon])
    (h : Spelled [] text.toList (tokens ++ ending))
    (hs : ∀ ts, ts.map Spanned.token = tokens → Production text.toList ts s) :
    read text = .ok s := by
  obtain ⟨us, hscan, hmap⟩ := Spelled.iff_scan.mp h
  rw [List.append_assoc] at hmap
  obtain ⟨ts, rest, rfl, hts, hrest⟩ := List.map_eq_append_iff.mp hmap
  refine read_eq_ok.mpr ⟨ts, rest, hscan, ?_, hs ts hts⟩
  rcases hending with rfl | rfl
  · exact .inl hrest
  · exact .inr hrest

/-- A deletion with a condition is read exactly if the tokens of one follow the keyword, and a
semicolon or nothing follows them. -/
theorem read_deletion_iff {name : String} (isName : IsName name)
    (h : Spelled x.toList text.toList [.word "DELETE", .word "FROM", .word name, .word "WHERE"]) :
    (∃ s, read (text ++ x) = .ok s ∧ s.condition = some c) ↔
      ∃ literal ending, literal.literal? = some c.literal ∧
        (ending = [] ∨ ending = [.semicolon]) ∧
        Spelled [] x.toList ([.word c.column, .operator c.op, literal] ++ ending) := by
  have continued {as : List Token} : Spelled [] (text.toList ++ x.toList) as ↔ _ :=
    Spelled.append_iff h
  rw [← String.toList_append] at continued
  constructor
  · rintro ⟨s, hread, hc⟩
    obtain ⟨ts, ending, produced, hending, spelled⟩ := spelled_of_read hread
    obtain ⟨bs, hts, hbs⟩ := continued.mp spelled
    obtain ⟨verb, name', literal, tokens, value⟩ :=
      produced.tokens_of_delete (produced.verb_eq hts) hc
    obtain ⟨-, -, rfl⟩ : verb = "DELETE" ∧ name' = name ∧
        [.word c.column, .operator c.op, literal] ++ ending = bs := by
      simpa [tokens] using hts
    exact ⟨literal, ending, value, hending, hbs⟩
  · rintro ⟨literal, ending, value, hending, hx⟩
    let deletion : Statement := { verb := .delete, table := name, condition := some c }
    have spelled := continued.mpr ⟨_, List.append_assoc .., hx⟩
    refine ⟨deletion, read_of_spelled hending spelled fun ts hts => ?_, rfl⟩
    exact .delete (Verb.spells_keyword .delete) isName (.given c.column c.op value) hts

end Statement

/-- The end of a condition as a text: nothing, or a semicolon that can be taken out. -/
theorem Condition.isText_or_iff : c.IsText x ∨ (∃ y, WithoutSemicolon x y ∧ c.IsText y) ↔
    ∃ literal ending, literal.literal? = some c.literal ∧
      (ending = [] ∨ ending = [.semicolon]) ∧
      Spelled [] x.toList ([.word c.column, .operator c.op, literal] ++ ending) := by
  constructor
  · rintro (⟨literal, value, hx⟩ | ⟨y, hy, literal, value, hx⟩)
    · exact ⟨literal, [], value, .inl rfl, hx⟩
    · exact ⟨literal, [.semicolon], value, .inr rfl, spelled_semicolon_iff.mpr ⟨y, hy, hx⟩⟩
  · rintro ⟨literal, ending, value, rfl | rfl, hx⟩
    · exact .inl ⟨literal, value, hx⟩
    · obtain ⟨y, hy, hread⟩ := spelled_semicolon_iff.mp hx
      exact .inr ⟨y, hy, literal, value, hread⟩

theorem Condition.holdsText_iff {header row : List String} :
    holdsText x header row = true ↔ ∃ c, read x = .ok c ∧ c.holds header row = true := by
  unfold holdsText
  cases read x <;> simp

/-- What is read as a condition is what a deletion accepts behind the keyword for one, but for a
semicolon at the end. Rows satisfy a text exactly if it is such a condition and they satisfy
this; a text that is no single comparison is satisfied by none. -/
theorem Condition.read_iff_deletion :
    (∀ x c, (∃ s, Statement.read ("DELETE FROM t WHERE " ++ x) = .ok s ∧ s.condition = some c) ↔
      read x = .ok c ∨ ∃ y, WithoutSemicolon x y ∧ read y = .ok c) ∧
    (∀ x header row, holdsText x header row = true ↔
      ∃ c, read x = .ok c ∧ c.holds header row = true) ∧
    ∀ x header row, (∀ c : Condition, ¬c.IsText x) → holdsText x header row = false := by
  have beginning (back : List Char) : Spelled back "DELETE FROM t WHERE ".toList
      [.word "DELETE", .word "FROM", .word "t", .word "WHERE"] :=
    .word (w := "DELETE") (by decide) (.word (w := "FROM") (by decide)
      (.word (w := "t") (by decide) (.word (w := "WHERE") (by decide) (.nil back))))
  have isName : IsName "t" := isTableName_iff.mp (by decide)
  refine ⟨fun x c => ?_, fun _ _ _ => holdsText_iff, fun x header row hx => ?_⟩
  · simp only [read_eq_ok]
    rw [Statement.read_deletion_iff isName (beginning _), isText_or_iff]
  · rw [Bool.eq_false_iff]
    intro holds
    obtain ⟨c, hc, -⟩ := holdsText_iff.mp holds
    exact hx c (read_eq_ok.mp hc)

/-- A semicolon in a literal and one behind it. A deletion may end in the second, so that it has
the condition, but as a text of its own this is no condition and holds for no row. -/
theorem Condition.read_iff_deletion_semicolon :
    let c : Condition := ⟨"a", .ge, "x;"⟩
    let x := "a>='x;' ;\n"
    (∃ s, Statement.read ("DELETE FROM t WHERE " ++ x) = .ok s ∧ s.condition = some c) ∧
      read "a>='x;' \n" = .ok c ∧ holdsText "a>='x;' \n" ["a"] ["y"] = true ∧
      (∀ c : Condition, ¬c.IsText x) ∧ holdsText x ["a"] ["y"] = false := by
  intro c x
  obtain ⟨deletion, holds, refused⟩ := read_iff_deletion
  have hscan : Token.scan x = .ok
      ([⟨.word "a", 0, 1⟩, ⟨.operator .ge, 1, 3⟩, ⟨.quoted "x;", 3, 7⟩] ++
        [⟨.semicolon, 8, 9⟩, ⟨.endOfText, 10, 10⟩]) := by
    decide +kernel
  have without : WithoutSemicolon x "a>='x;' \n" := ⟨_, _, _, hscan, rfl, by decide⟩
  have hread : read "a>='x;' \n" = .ok c := Outcome.toOption_eq_some.mp (by decide +kernel)
  have noText (d : Condition) : ¬d.IsText x := by
    intro h
    have hsome := Outcome.toOption_eq_some.mpr (read_eq_ok.mpr h)
    have hnone : (read x).toOption = none := by decide +kernel
    cases hsome.symm.trans hnone
  exact ⟨(deletion x c).mpr (.inr ⟨_, without, hread⟩), hread,
    (holds _ _ _).mpr ⟨c, hread, by decide⟩, noText, refused x _ _ noText⟩

end TableStore.Sql
