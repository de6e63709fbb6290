import TableStore.Proofs.Sql.GroupText
import TableStore.Proofs.Sql.Production
import TableStore.Proofs.Sql.Tiling

/-! The values between two parentheses are read from the text and not from the tokens. Both
scans keep in step: an entry of the group is what the tokens before a comma spell. -/
namespace TableStore.Sql.ValueGroup

open TableStore.Text

variable {rest front tail : List Char} {pos : Nat} {ts : List Spanned} {t : Token} {c : Char}

theorem padding_of_isBlank {cs : List Char} (h : ∀ c ∈ cs, isBlank c = true) : Padding cs :=
  fun c hc => .inl (h c hc)

theorem not_padding_of_word (h : Token.isDelimiter c = false) : ¬Padding [c] := by
  obtain ⟨hb, hc⟩ := Token.isDelimiter_eq_false.mp h
  simp only [List.mem_cons, List.not_mem_nil, not_or] at hc
  simp [Padding, hb, hc]

theorem bare_of_word {cs : List Char} (h : ∀ c ∈ cs, Token.isDelimiter c = false) : Bare cs := by
  constructor
  · intro hm
    cases h _ hm
  · intro hm
    cases h _ hm

/-- The tokens that hold no separator and no quote are bare text. -/
theorem bare_spelling (he : t.Ends rest) (hc : t ≠ .comma) (hq : ∀ s, t ≠ .quoted s) :
    Bare t.spelling := by
  cases t with
  | word w => exact bare_of_word he.2.1
  | quoted s => exact absurd rfl (hq s)
  | comma => exact absurd rfl hc
  | endOfText => exact he.elim
  | operator op => cases op <;> exact ⟨by decide, by decide⟩
  | _ => exact ⟨by decide, by decide⟩

/-- A token is a parenthesis, which is padding, or it begins with what is not. -/
theorem spelling_padding (he : t.Ends rest) (hc : t ≠ .comma) :
    Padding t.spelling ∨ ∃ c cs, t.spelling = c :: cs ∧ ¬Padding [c] ∧ c ≠ ',' := by
  cases t with
  | word w =>
    obtain ⟨hne, hw, -⟩ := he
    obtain ⟨c, cs, hcs⟩ := List.exists_cons_of_ne_nil hne
    have hd := hw c (by simp [hcs])
    refine .inr ⟨c, cs, hcs, not_padding_of_word hd, ?_⟩
    rintro rfl
    cases hd
  | quoted s => exact .inr ⟨_, _, rfl, not_padding_singleton.mpr rfl, by decide⟩
  | comma => exact absurd rfl hc
  | endOfText => exact he.elim
  | openParen => exact .inl (padding_iff.mpr (List.all_eq_true.mp (by decide)))
  | closeParen => exact .inl (padding_iff.mpr (List.all_eq_true.mp (by decide)))
  | semicolon => exact .inr ⟨_, _, rfl, not_padding_singleton.mpr rfl, by decide⟩
  | operator op =>
    exact .inr (by cases op <;> exact ⟨_, _, rfl, not_padding_singleton.mpr rfl, by decide⟩)

theorem quoted_of_spelling {cs : List Char} (he : t.Ends rest) (h : t.spelling = quoteMark :: cs) :
    ∃ s, t = .quoted s ∧ cs = doubleQuotes s.toList ++ [quoteMark] := by
  cases t with
  | word w =>
    have := he.2.1 quoteMark (by simp [show w.toList = quoteMark :: cs from h])
    cases this
  | quoted s => exact ⟨s, rfl, (List.cons.inj h).2.symm⟩
  | endOfText => exact he.elim
  | operator op => cases op <;> cases h
  | _ => cases h

section Entry

variable (h : Tiles rest pos front ts) (hc : ∀ t ∈ ts, t.token ≠ .comma)
include h hc

/-- The first character of an entry that is not bare is the quote that opens a quoted text. -/
theorem bare_or_quote : Bare front ∨
    ∃ before after, front = before ++ quoteMark :: after ∧ Bare before := by
  induction h with
  | gap blank => exact .inl (padding_of_isBlank blank).bare
  | @token pos gap t more ts blank ends tail ih =>
    have bare : Bare gap := (padding_of_isBlank blank).bare
    rw [List.forall_mem_cons] at hc
    by_cases hq : ∃ s, t = .quoted s
    · obtain ⟨s, rfl⟩ := hq
      refine .inr ⟨gap, doubleQuotes s.toList ++ [quoteMark] ++ more, ?_, bare⟩
      simp [Token.spelling, quote]
    · have spelled := bare_spelling ends hc.1 fun s hs => hq ⟨s, hs⟩
      rcases ih hc.2 with hall | ⟨before, after, rfl, hbefore⟩
      · exact .inl (bare.append (spelled.append hall))
      · exact .inr ⟨gap ++ (t.spelling ++ before), after, by simp,
          bare.append (spelled.append hbefore)⟩

/-- After the padding of an entry comes nothing, or a token that is no parenthesis. -/
theorem padding_or_token : Padding front ∨
    ∃ (padding : List Char) (t : Token) (more : List Char) (pos' : Nat) (ts' : List Spanned),
      front = padding ++ (t.spelling ++ more) ∧
      Padding padding ∧ t.Ends (more ++ rest) ∧ Tiles rest pos' more ts' ∧
      (∀ t ∈ ts', t.token ≠ .comma) ∧
      ∃ c cs, t.spelling = c :: cs ∧ ¬Padding [c] ∧ c ≠ ',' := by
  induction h with
  | gap blank => exact .inl (padding_of_isBlank blank)
  | @token pos gap t more ts blank ends tail ih =>
    have padding : Padding gap := padding_of_isBlank blank
    rw [List.forall_mem_cons] at hc
    rcases spelling_padding ends hc.1 with hpad | hfirst
    · rcases ih hc.2 with hall | ⟨before, u, after, pos', us, rfl, hbefore, hrest⟩
      · exact .inl (padding.append (hpad.append hall))
      · exact .inr ⟨gap ++ (t.spelling ++ before), u, after, pos', us, by simp,
          padding.append (hpad.append hbefore), hrest⟩
    · exact .inr ⟨gap, t, more, _, ts, rfl, padding, ends, tail, hc.2, hfirst⟩

end Entry

/-- An entry was read up to a place, or refused for another reason than an open quote. -/
def InStep (tail : List Char) : Except Fault (List Char × List Char) → Prop
  | .ok (_, after) => after = tail
  | .error fault => fault ≠ unclosedQuote

theorem quoteAfter_ne (text : List Char) : quoteAfter text ≠ unclosedQuote := by
  intro h
  have := congrArg String.toList (Fault.malformed.inj h)
  simp at this

theorem textAfter_ne (c : Char) (value : List Char) : textAfter c value ≠ unclosedQuote := by
  intro h
  have := congrArg String.toList (Fault.malformed.inj h)
  simp at this

section InStep

variable (h : Tiles rest pos front ts) (hc : ∀ t ∈ ts, t.token ≠ .comma) (ht : Stops tail)
include h hc ht

theorem bareEntry_inStep : InStep tail (bareEntry (front ++ tail)) := by
  rcases bare_or_quote h hc with hall | ⟨before, after, rfl, hbefore⟩
  · rw [bareEntry_of_stops hall ht]
    split
    · exact nofun
    · exact rfl
  · rw [List.append_assoc, List.cons_append, bareEntry_of_quote hbefore]
    exact quoteAfter_ne _

theorem quotedEntry_inStep (text : List Char) (hq : (front ++ rest).head? ≠ some quoteMark) :
    InStep tail (quotedEntry (doubleQuotes text ++ quoteMark :: (front ++ tail))) := by
  rcases padding_or_token h hc with hall | ⟨padding, t, more, -, -, rfl, hpad, -, -, -, hfirst⟩
  · rw [quotedEntry_of_stops hall ht]
    exact rfl
  · obtain ⟨c, cs, hcs, hc', hne⟩ := hfirst
    have unquoted : padding = [] → c ≠ quoteMark := by
      rintro rfl rfl
      exact hq (by rw [hcs]; rfl)
    rw [hcs, List.append_assoc, List.cons_append, List.cons_append,
      quotedEntry_of_text hpad hc' hne unquoted]
    exact textAfter_ne c text

/-- The scan of an entry ends where its tokens end. -/
theorem entry_inStep : InStep tail (entry (front ++ tail)) := by
  rcases padding_or_token h hc with hall | ⟨padding, t, more, _, us, rfl, hpad, ends, htiles,
    hus, c, cs, hcs, hc', hne⟩
  · rw [entry_bare hall.bare fun _ => ht]
    exact bareEntry_inStep h hc ht
  · by_cases hq : c = quoteMark
    · subst hq
      obtain ⟨text, rfl, rfl⟩ := quoted_of_spelling ends hcs
      rw [hcs, List.append_assoc, List.cons_append, List.cons_append,
        entry_quote hpad]
      have := quotedEntry_inStep htiles hus ht text.toList ends
      simpa using this
    · have hstep := bareEntry_inStep h hc ht
      rw [hcs] at hstep ⊢
      simp only [List.append_assoc, List.cons_append] at hstep ⊢
      rw [entry_other hpad hc' hq]
      exact hstep

end InStep

/-- As many values were read as there are entries, or an entry was refused, but not for an
open quote. -/
def Counted (n : Nat) : Except Fault (List String) → Prop
  | .ok values => values.length = n
  | .error fault => fault ≠ unclosedQuote

theorem Counted.cons {n : Nat} {r : Except Fault (List String)} (h : Counted n r) (value : String) :
    Counted (n + 1) (r.map (value :: ·)) := by
  cases r with
  | ok values => exact congrArg (· + 1) h
  | error fault => exact h

/-- The tokens of a group up to its first separator, and those after it. -/
theorem split_at_comma {n : Nat} (hn : (ts.map Spanned.token).count .comma = n + 1) :
    ∃ first u others, ts = first ++ u :: others ∧ u.token = .comma ∧
      (∀ t ∈ first, t.token ≠ .comma) ∧ (others.map Spanned.token).count .comma = n := by
  induction ts with
  | nil => cases hn
  | cons t ts ih =>
    rw [List.map_cons, List.count_cons] at hn
    by_cases ht : t.token = .comma
    · refine ⟨[], t, ts, rfl, ht, nofun, ?_⟩
      simpa [ht] using hn
    · obtain ⟨first, u, others, rfl, hu, hfirst, hcount⟩ := ih (by simpa [ht] using hn)
      refine ⟨t :: first, u, others, rfl, hu, ?_, hcount⟩
      rw [List.forall_mem_cons]
      exact ⟨ht, hfirst⟩

theorem readFrom_counted {cs : List Char} (h : Tiles rest pos cs ts) :
    Counted ((ts.map Spanned.token).count .comma + 1) (readFrom cs) := by
  -- The induction is over the entries, each of which is tiled by the tokens before a comma.
  generalize hn : (ts.map Spanned.token).count .comma = n
  induction n generalizing pos cs ts with
  | zero =>
    have hc : ∀ t ∈ ts, t.token ≠ .comma := by
      intro t ht he
      exact List.count_eq_zero.mp hn (he ▸ List.mem_map_of_mem ht)
    have hstep : InStep [] (entry (cs ++ [])) := entry_inStep h hc nofun
    rw [List.append_nil] at hstep
    cases he : entry cs with
    | ok p =>
      obtain ⟨value, after⟩ := p
      rw [he] at hstep
      rw [(readFrom_of_entry he).1 hstep]
      exact rfl
    | error fault =>
      rw [he] at hstep
      rw [readFrom_of_entry_error he]
      exact hstep
  | succ n ih =>
    obtain ⟨first, u, others, rfl, hu, hfirst, hothers⟩ := split_at_comma hn
    obtain ⟨front, back, rfl, -, -, -, hfront, hback⟩ := Tiles.append_cons_iff.mp h
    rw [hu]
    have hstep : InStep (',' :: back) (entry (front ++ ',' :: back)) :=
      entry_inStep hfront hfirst (.comma back)
    cases he : entry (front ++ ',' :: back) with
    | ok p =>
      obtain ⟨value, after⟩ := p
      rw [he] at hstep
      have hread := (readFrom_of_entry he).2 ',' back hstep
      exact hread ▸ (ih hback hothers).cons _
    | error fault =>
      rw [he] at hstep
      have hread := readFrom_of_entry_error he
      exact hread ▸ hstep

/-- An entry that is one literal has its text as its value. -/
theorem isEntry_literal {value : String} {u : Spanned} (h : Tiles rest pos front [u])
    (hu : u.token.literal? = some value) : IsEntry front value.toList := by
  cases h with
  | @token _ gap t more _ blank ends last =>
  cases last with
  | gap blank' =>
  rw [← List.append_assoc]
  have hgap : Padding gap := padding_of_isBlank blank
  have hmore : Padding more := padding_of_isBlank blank'
  cases t with
  | word w =>
    cases hu
    obtain ⟨ne, hw, -⟩ := ends
    exact .bare hgap hmore (bare_of_word hw) ne
      (fun c hm => not_padding_of_word (hw c (List.mem_of_mem_head? hm)))
      (fun c hm => not_padding_of_word (hw c (List.mem_of_mem_getLast? hm)))
  | quoted text =>
    cases hu
    exact .quoted hgap hmore
  | _ => cases hu

/-- Literals with separators between them are a group of their values. -/
theorem isGroup_literals {cs : List Char} {values : List String}
    (hlist : LiteralList (ts.map Spanned.token) values) (h : Tiles rest pos cs ts) :
    IsGroup cs values := by
  generalize htokens : ts.map Spanned.token = tokens at hlist
  induction hlist generalizing pos cs ts with
  | @one _ value literal =>
    obtain ⟨u, us, rfl, rfl, hus⟩ := List.map_eq_cons_iff.mp htokens
    obtain rfl := List.map_eq_nil_iff.mp hus
    rw [← String.ofList_toList (s := value)]
    exact .one (isEntry_literal h literal)
  | @more _ value _ values literal tail ih =>
    obtain ⟨u, us, rfl, rfl, hus⟩ := List.map_eq_cons_iff.mp htokens
    obtain ⟨comma, us, rfl, hcomma, hus⟩ := List.map_eq_cons_iff.mp hus
    obtain ⟨front, back, rfl, -, -, -, hfront, hback⟩ :=
      Tiles.append_cons_iff.mp (show Tiles rest pos cs ([u] ++ comma :: us) from h)
    rw [hcomma, ← String.ofList_toList (s := value)]
    exact .more (isEntry_literal hfront literal) (ih hback hus)

theorem readFrom_literals {cs : List Char} {values : List String}
    (hlist : LiteralList (ts.map Spanned.token) values) (h : Tiles rest pos cs ts) :
    readFrom cs = .ok values :=
  readFrom_eq_ok.mpr (isGroup_literals hlist h)

end TableStore.Sql.ValueGroup
