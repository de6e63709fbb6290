import TableStore.Proofs.Sql.Grammar
import TableStore.Proofs.Sql.Spacing

/-! A text is a statement exactly if its tokens, without a semicolon at the end, form one of
the five productions. -/
namespace TableStore.Sql

namespace Grammar

variable {text : List Char} {ts mid rest : List Spanned} {u : Spanned} {t : Token}
  {as : List Token} {w name : String} {s : Statement}

/-- Nothing that a statement can go on with. -/
def AtEnd (ts : List Spanned) : Prop :=
  current ts = .semicolon ∨ current ts = .endOfText

theorem AtEnd.ne (h : AtEnd ts) (hs : t ≠ .semicolon) (he : t ≠ .endOfText) : current ts ≠ t := by
  rintro rfl
  rcases h with h | h
  · exact hs h
  · exact he h

theorem current_of_takes (h : Takes ts (t :: as) rest) : current ts = t := by
  obtain ⟨u, _, rfl, hu, -⟩ := takes_cons.mp h
  exact hu

theorem takes_head (h : Takes ts (t :: as) rest) : ∃ mid, Takes ts [t] mid ∧ Takes mid as rest :=
  takes_append.mp (show Takes ts ([t] ++ as) rest from h)

variable {cs us : List Token} {columns types : List String}

theorem production_of_create (hu : u.token = .word w) (hw : Verb.create.Spells w)
    (h : create ts = .ok (s, rest)) : ∃ front, ts = front ++ rest ∧
      Production text (u :: front) s := by
  obtain ⟨_, htable, h⟩ := Outcome.bind_eq_ok.mp h
  obtain ⟨⟨name, _⟩, hname, h⟩ := Outcome.bind_eq_ok.mp h
  obtain ⟨⟨columns, _⟩, hcolumns, h⟩ := Outcome.bind_eq_ok.mp h
  obtain ⟨_, hwith, h⟩ := Outcome.bind_eq_ok.mp h
  obtain ⟨_, htypes, h⟩ := Outcome.bind_eq_ok.mp h
  obtain ⟨⟨types, _⟩, hgroup, h⟩ := Outcome.bind_eq_ok.mp h
  cases h
  obtain ⟨isName, hname⟩ := tableName_eq_ok.mp hname
  obtain ⟨cs, listed, hcolumns⟩ := wordGroup_eq_ok.mp hcolumns
  obtain ⟨us, typed, hgroup⟩ := wordGroup_eq_ok.mp hgroup
  obtain ⟨front, rfl, hfront⟩ := (keyword_eq_ok.mp htable).trans (hname.trans (hcolumns.trans
    ((keyword_eq_ok.mp hwith).trans ((keyword_eq_ok.mp htypes).trans hgroup))))
  refine ⟨front, rfl, .create hw isName listed typed ?_⟩
  rw [List.map_cons, hu, hfront]
  simp

theorem create_of_takes (isName : IsName name) (listed : WordList cs columns)
    (typed : WordList us types)
    (h : Takes ts (.word "TABLE" :: .word name :: .openParen :: (cs ++ .closeParen ::
      .word "WITH" :: .word "TYPES" :: .openParen :: (us ++ [.closeParen]))) rest) :
    create ts = .ok ({ verb := .create, table := name, columns, groups := [types] }, rest) := by
  obtain ⟨_, htable, h⟩ := takes_head h
  obtain ⟨_, hname, h⟩ := takes_head h
  obtain ⟨_, hcolumns, h⟩ : ∃ mid, Takes _ (.openParen :: (cs ++ [.closeParen])) mid ∧ _ :=
    takes_append.mp (by simpa using h)
  obtain ⟨_, hwith, h⟩ := takes_head h
  obtain ⟨_, htypes, h⟩ := takes_head h
  unfold create
  rw [keyword_eq_ok.mpr htable, Outcome.ok_bind, tableName_eq_ok.mpr ⟨isName, hname⟩,
    Outcome.ok_bind]
  simp only
  rw [wordGroup_eq_ok.mpr ⟨cs, listed, hcolumns⟩, Outcome.ok_bind]
  simp only
  rw [keyword_eq_ok.mpr hwith, Outcome.ok_bind, keyword_eq_ok.mpr htypes, Outcome.ok_bind,
    wordGroup_eq_ok.mpr ⟨us, typed, h⟩, Outcome.ok_bind]
  rfl

theorem production_of_insert (hu : u.token = .word w) (hw : Verb.insert.Spells w)
    (h : insert text ts = .ok (s, rest)) : ∃ front, ts = front ++ rest ∧
      Production text (u :: front) s := by
  obtain ⟨_, hinto, h⟩ := Outcome.bind_eq_ok.mp h
  obtain ⟨⟨name, _⟩, hname, h⟩ := Outcome.bind_eq_ok.mp h
  obtain ⟨⟨columns, _⟩, hcolumns, h⟩ := Outcome.bind_eq_ok.mp h
  obtain ⟨_, hvalues, h⟩ := Outcome.bind_eq_ok.mp h
  obtain ⟨⟨groups, _⟩, hgroups, h⟩ := Outcome.bind_eq_ok.mp h
  cases h
  obtain ⟨isName, hname⟩ := tableName_eq_ok.mp hname
  obtain ⟨cs, listed, hcolumns⟩ := wordGroup_eq_ok.mp hcolumns
  obtain ⟨gs, rfl, grouped, -⟩ := groups_eq_ok.mp hgroups
  obtain ⟨front, rfl, hfront⟩ := (keyword_eq_ok.mp hinto).trans (hname.trans (hcolumns.trans
    (keyword_eq_ok.mp hvalues)))
  have produced : Production text (u :: front ++ gs) _ := .insert hw isName listed grouped (by
    rw [List.map_cons, hu, hfront]
    simp)
  exact ⟨front ++ gs, (List.append_assoc ..).symm, produced⟩

theorem insert_of_takes {gs : List Spanned} {groups : List (List String)} (hr : AtEnd rest)
    (isName : IsName name) (listed : WordList cs columns) (grouped : GroupList text gs groups)
    (h : Takes ts (.word "INTO" :: .word name :: .openParen ::
      (cs ++ [.closeParen, .word "VALUES"])) (gs ++ rest)) :
    insert text ts = .ok ({ verb := .insert, table := name, columns, groups }, rest) := by
  obtain ⟨_, hinto, h⟩ := takes_head h
  obtain ⟨_, hname, h⟩ := takes_head h
  obtain ⟨_, hcolumns, h⟩ : ∃ mid, Takes _ (.openParen :: (cs ++ [.closeParen])) mid ∧ _ :=
    takes_append.mp (by simpa using h)
  unfold insert
  rw [keyword_eq_ok.mpr hinto, Outcome.ok_bind, tableName_eq_ok.mpr ⟨isName, hname⟩,
    Outcome.ok_bind]
  simp only
  rw [wordGroup_eq_ok.mpr ⟨cs, listed, hcolumns⟩, Outcome.ok_bind]
  simp only
  rw [keyword_eq_ok.mpr h, Outcome.ok_bind,
    groups_eq_ok.mpr ⟨gs, rfl, grouped, hr.ne nofun nofun⟩, Outcome.ok_bind]
  rfl

variable {ws os : List Token} {condition : Option Condition} {order : Option String}

theorem production_of_select (hu : u.token = .word w) (hw : Verb.select.Spells w)
    (h : select ts = .ok (s, rest)) : ∃ front, ts = front ++ rest ∧
      Production text (u :: front) s := by
  obtain ⟨⟨columns, _⟩, hcolumns, h⟩ := Outcome.bind_eq_ok.mp h
  obtain ⟨_, hfrom, h⟩ := Outcome.bind_eq_ok.mp h
  obtain ⟨⟨name, _⟩, hname, h⟩ := Outcome.bind_eq_ok.mp h
  obtain ⟨⟨condition, _⟩, hcondition, h⟩ := Outcome.bind_eq_ok.mp h
  obtain ⟨⟨order, _⟩, horder, h⟩ := Outcome.bind_eq_ok.mp h
  cases h
  obtain ⟨cs, listed, hcolumns, -⟩ := words_eq_ok.mp hcolumns
  obtain ⟨isName, hname⟩ := tableName_eq_ok.mp hname
  obtain ⟨ws, filtered, hws, -⟩ := condition_eq_ok.mp hcondition
  obtain ⟨os, ordered, hos, -⟩ := order_eq_ok.mp horder
  obtain ⟨front, rfl, hfront⟩ := hcolumns.trans ((keyword_eq_ok.mp hfrom).trans
    (hname.trans (hws.trans hos)))
  refine ⟨front, rfl, .select hw isName listed filtered ordered ?_⟩
  rw [List.map_cons, hu, hfront]
  rfl

theorem select_of_takes (hr : AtEnd rest) (isName : IsName name) (listed : WordList cs columns)
    (filtered : WhereClause ws condition) (ordered : OrderClause os order)
    (h : Takes ts (cs ++ .word "FROM" :: .word name :: (ws ++ os)) rest) :
    select ts = .ok ({ verb := .select, table := name, columns, condition, order }, rest) := by
  obtain ⟨_, hcolumns, h⟩ := takes_append.mp h
  have hcomma := current_of_takes h
  obtain ⟨_, hfrom, h⟩ := takes_head h
  obtain ⟨_, hname, h⟩ := takes_head h
  obtain ⟨mid, hws, hos⟩ := takes_append.mp h
  -- What follows an absent condition is the order or the end, and neither is a condition.
  have hwhere : current mid ≠ .word "WHERE" := by
    cases ordered with
    | absent =>
      obtain rfl := takes_nil.mp hos
      exact hr.ne nofun nofun
    | given column =>
      rw [current_of_takes hos]
      decide
  unfold select
  rw [words_eq_ok.mpr ⟨cs, listed, hcolumns, by rw [hcomma]; nofun⟩, Outcome.ok_bind]
  simp only
  rw [keyword_eq_ok.mpr hfrom, Outcome.ok_bind, tableName_eq_ok.mpr ⟨isName, hname⟩,
    Outcome.ok_bind]
  simp only
  rw [condition_eq_ok.mpr ⟨ws, filtered, hws, fun _ => hwhere⟩, Outcome.ok_bind]
  simp only
  rw [order_eq_ok.mpr ⟨os, ordered, hos, fun _ => hr.ne nofun nofun⟩, Outcome.ok_bind]
  rfl

theorem production_of_update (hu : u.token = .word w) (hw : Verb.update.Spells w)
    (h : update ts = .ok (s, rest)) : ∃ front, ts = front ++ rest ∧
      Production text (u :: front) s := by
  obtain ⟨⟨name, _⟩, hname, h⟩ := Outcome.bind_eq_ok.mp h
  obtain ⟨_, hset, h⟩ := Outcome.bind_eq_ok.mp h
  obtain ⟨⟨pairs, _⟩, hpairs, h⟩ := Outcome.bind_eq_ok.mp h
  obtain ⟨⟨condition, _⟩, hcondition, h⟩ := Outcome.bind_eq_ok.mp h
  rw [List.unzip_eq_map] at h
  cases h
  obtain ⟨isName, hname⟩ := tableName_eq_ok.mp hname
  obtain ⟨as, assigned, has, -⟩ := assignments_eq_ok.mp hpairs
  obtain ⟨ws, filtered, hws, -⟩ := condition_eq_ok.mp hcondition
  obtain ⟨front, rfl, hfront⟩ := hname.trans ((keyword_eq_ok.mp hset).trans (has.trans hws))
  refine ⟨front, rfl, .update hw isName assigned filtered ?_⟩
  rw [List.map_cons, hu, hfront]
  rfl

theorem update_of_takes {pairs : List (String × String)} (hr : AtEnd rest) (isName : IsName name)
    (assigned : AssignmentList as pairs) (filtered : WhereClause ws condition)
    (h : Takes ts (.word name :: .word "SET" :: (as ++ ws)) rest) :
    update ts = .ok (
      { verb := .update, table := name, columns := pairs.map Prod.fst,
        groups := [pairs.map Prod.snd], condition }, rest) := by
  obtain ⟨_, hname, h⟩ := takes_head h
  obtain ⟨_, hset, h⟩ := takes_head h
  obtain ⟨mid, has, hws⟩ := takes_append.mp h
  have hcomma : current mid ≠ .comma := by
    cases filtered with
    | absent =>
      obtain rfl := takes_nil.mp hws
      exact hr.ne nofun nofun
    | given column op literal =>
      rw [current_of_takes hws]
      nofun
  unfold update
  rw [tableName_eq_ok.mpr ⟨isName, hname⟩, Outcome.ok_bind]
  simp only
  rw [keyword_eq_ok.mpr hset, Outcome.ok_bind,
    assignments_eq_ok.mpr ⟨as, assigned, has, hcomma⟩, Outcome.ok_bind]
  simp only
  rw [condition_eq_ok.mpr ⟨ws, filtered, hws, fun _ => hr.ne nofun nofun⟩, Outcome.ok_bind,
    List.unzip_eq_map]
  rfl

theorem production_of_delete (hu : u.token = .word w) (hw : Verb.delete.Spells w)
    (h : delete ts = .ok (s, rest)) : ∃ front, ts = front ++ rest ∧
      Production text (u :: front) s := by
  obtain ⟨_, hfrom, h⟩ := Outcome.bind_eq_ok.mp h
  obtain ⟨⟨name, _⟩, hname, h⟩ := Outcome.bind_eq_ok.mp h
  obtain ⟨⟨condition, _⟩, hcondition, h⟩ := Outcome.bind_eq_ok.mp h
  cases h
  obtain ⟨isName, hname⟩ := tableName_eq_ok.mp hname
  obtain ⟨ws, filtered, hws, -⟩ := condition_eq_ok.mp hcondition
  obtain ⟨front, rfl, hfront⟩ := (keyword_eq_ok.mp hfrom).trans (hname.trans hws)
  refine ⟨front, rfl, .delete hw isName filtered ?_⟩
  rw [List.map_cons, hu, hfront]
  rfl

theorem delete_of_takes (hr : AtEnd rest) (isName : IsName name)
    (filtered : WhereClause ws condition)
    (h : Takes ts (.word "FROM" :: .word name :: ws) rest) :
    delete ts = .ok ({ verb := .delete, table := name, condition }, rest) := by
  obtain ⟨_, hfrom, h⟩ := takes_head h
  obtain ⟨_, hname, h⟩ := takes_head h
  unfold delete
  rw [keyword_eq_ok.mpr hfrom, Outcome.ok_bind, tableName_eq_ok.mpr ⟨isName, hname⟩,
    Outcome.ok_bind]
  simp only
  rw [condition_eq_ok.mpr ⟨ws, filtered, h, fun _ => hr.ne nofun nofun⟩, Outcome.ok_bind]
  rfl

theorem verb_eq_ok {v : Verb} : verb t = .ok v ↔ ∃ w, t = .word w ∧ v.Spells w := by
  unfold verb
  cases t with
  | word w =>
    simp only [Token.word.injEq, exists_eq_left', ← Verb.ofWord?_eq_some]
    cases Verb.ofWord? w <;> simp
  | _ => simp

/-- What follows the verb of a statement is read as one of the productions. -/
theorem production_of_body {v : Verb} (hu : u.token = .word w) (hw : v.Spells w)
    (h : body text ts v = .ok (s, rest)) : ∃ front, ts = front ++ rest ∧
      Production text (u :: front) s := by
  cases v with
  | create => exact production_of_create hu hw h
  | insert => exact production_of_insert hu hw h
  | select => exact production_of_select hu hw h
  | update => exact production_of_update hu hw h
  | delete => exact production_of_delete hu hw h

theorem body_of_production {front : List Spanned} (hr : AtEnd rest)
    (h : Production text front s) : ∃ u us v w, front = u :: us ∧ u.token = .word w ∧
      v.Spells w ∧ body text (us ++ rest) v = .ok (s, rest) := by
  cases h with
  | create spells isName listed typed tokens =>
    obtain ⟨u, us, rfl, hu, hus⟩ := List.map_eq_cons_iff.mp tokens
    exact ⟨u, us, _, _, rfl, hu, spells, create_of_takes isName listed typed ⟨us, rfl, hus⟩⟩
  | @insert ts gs _ _ _ _ _ spells isName listed grouped tokens =>
    obtain ⟨u, us, rfl, hu, hus⟩ := List.map_eq_cons_iff.mp tokens
    exact ⟨u, us ++ gs, _, _, rfl, hu, spells, insert_of_takes hr isName listed grouped
      ⟨us, List.append_assoc .., hus⟩⟩
  | select spells isName listed filtered ordered tokens =>
    obtain ⟨u, us, rfl, hu, hus⟩ := List.map_eq_cons_iff.mp tokens
    exact ⟨u, us, _, _, rfl, hu, spells, select_of_takes hr isName listed filtered ordered
      ⟨us, rfl, hus⟩⟩
  | update spells isName assigned filtered tokens =>
    obtain ⟨u, us, rfl, hu, hus⟩ := List.map_eq_cons_iff.mp tokens
    exact ⟨u, us, _, _, rfl, hu, spells, update_of_takes hr isName assigned filtered
      ⟨us, rfl, hus⟩⟩
  | delete spells isName filtered tokens =>
    obtain ⟨u, us, rfl, hu, hus⟩ := List.map_eq_cons_iff.mp tokens
    exact ⟨u, us, _, _, rfl, hu, spells, delete_of_takes hr isName filtered ⟨us, rfl, hus⟩⟩

/-- The end of the text, with one semicolon before it or none. -/
def IsEnding (ts : List Spanned) : Prop :=
  ts.map Spanned.token = [.endOfText] ∨ ts.map Spanned.token = [.semicolon, .endOfText]

theorem finish_of_isEnding (h : IsEnding ts) : finish ts = .ok () ∧ AtEnd ts := by
  rcases h with h | h
  · obtain ⟨u, us, rfl, hu, -⟩ := List.map_eq_cons_iff.mp h
    have hcurrent : current (u :: us) = .endOfText := hu
    exact ⟨by simp [finish, hcurrent], .inr hcurrent⟩
  · obtain ⟨u, us, rfl, hu, hus⟩ := List.map_eq_cons_iff.mp h
    obtain ⟨v, us, rfl, hv, -⟩ := List.map_eq_cons_iff.mp hus
    have hcurrent : current (u :: v :: us) = .semicolon := hu
    have hnext : current (v :: us) = .endOfText := hv
    exact ⟨by simp [finish, hcurrent, hnext], .inl hcurrent⟩

theorem finish_eq_ok : finish ts = .ok () ↔
    current ts = .endOfText ∨ current ts = .semicolon ∧ current ts.tail = .endOfText := by
  unfold finish unexpected
  by_cases hs : current ts = .semicolon
  · by_cases he : current ts.tail = .endOfText <;> simp [hs, he]
  · by_cases he : current ts = .endOfText <;> simp [hs, he]

theorem isEnding_append {bs : List Spanned} {last : Spanned} (hlast : last.token = .endOfText)
    (hbs : .endOfText ∉ bs.map Spanned.token) (h : finish (bs ++ [last]) = .ok ()) :
    IsEnding (bs ++ [last]) := by
  have current_cons {b : Spanned} {bs : List Spanned}
      (hbs : .endOfText ∉ (b :: bs).map Spanned.token) : b.token ≠ .endOfText := by
    rintro hb
    exact hbs (by simp [hb])
  cases bs with
  | nil => exact .inl (by simp [hlast])
  | cons b bs =>
    rcases finish_eq_ok.mp h with he | ⟨hs, he⟩
    · exact absurd he (current_cons hbs)
    · cases bs with
      | nil => exact .inr (by simp [show b.token = .semicolon from hs, hlast])
      | cons c bs =>
        rw [List.map_cons, List.mem_cons, not_or] at hbs
        exact absurd he (current_cons hbs.2)

/-- What is left behind a production is the end, if it is read as the end. -/
theorem isEnding_of_finish {us : List Spanned} {last : Spanned} (hlast : last.token = .endOfText)
    (hus : .endOfText ∉ us.map Spanned.token) (hts : .endOfText ∉ ts.map Spanned.token)
    (h : us ++ [last] = ts ++ rest) (hf : finish rest = .ok ()) : IsEnding rest := by
  rcases List.append_eq_append_iff.mp h with ⟨as, rfl, has⟩ | ⟨bs, rfl, rfl⟩
  · cases as with
    | nil =>
      obtain rfl : [last] = rest := has
      exact .inl (by simp [hlast])
    | cons a as =>
      obtain ⟨rfl, -⟩ := List.cons.inj has
      exact absurd (by simp [hlast]) hts
  · rw [List.map_append, List.mem_append, not_or] at hus
    exact isEnding_append hlast hus.2 hf

end Grammar

open Grammar

theorem Statement.read_eq_ok {text : String} {s : Statement} : Statement.read text = .ok s ↔
    ∃ ts ending, Token.scan text = .ok (ts ++ ending) ∧ IsEnding ending ∧
      Production text.toList ts s := by
  unfold Statement.read
  constructor
  · intro h
    obtain ⟨all, hscan, h⟩ := Outcome.bind_eq_ok.mp h
    obtain ⟨v, hverb, h⟩ := Outcome.bind_eq_ok.mp h
    obtain ⟨⟨s, rest⟩, hbody, h⟩ := Outcome.bind_eq_ok.mp h
    obtain ⟨_, hfinish, h⟩ := Outcome.bind_eq_ok.mp h
    cases h
    obtain ⟨w, hcurrent, hw⟩ := verb_eq_ok.mp hverb
    obtain ⟨mid, hmid⟩ := (current_eq (t := .word w) nofun).mp hcurrent
    obtain ⟨u, rfl, hu⟩ := takes_singleton.mp hmid
    obtain ⟨front, hfront, produced⟩ := production_of_body hu hw hbody
    obtain ⟨us, htiles, heq⟩ := Token.scan_eq_ok.mp hscan
    have hall : u :: mid = u :: front ++ rest := congrArg (u :: ·) hfront
    refine ⟨u :: front, rest, hall ▸ hscan, ?_, produced⟩
    refine isEnding_of_finish rfl ?_ produced.endOfText_notMem (heq.symm.trans hall) hfinish
    intro hmem
    obtain ⟨t, ht, he⟩ := List.mem_map.mp hmem
    exact htiles.ne_endOfText t ht he
  · rintro ⟨ts, ending, hscan, hending, produced⟩
    obtain ⟨hfinish, hend⟩ := finish_of_isEnding hending
    obtain ⟨u, us, v, w, rfl, hu, hw, hbody⟩ := body_of_production hend produced
    have hverb : Grammar.verb (current (u :: us ++ ending)) = .ok v := verb_eq_ok.mpr ⟨w, hu, hw⟩
    rw [hscan, Outcome.ok_bind, hverb, Outcome.ok_bind, List.cons_append, List.tail_cons, hbody,
      Outcome.ok_bind]
    simp only
    rw [hfinish, Outcome.ok_bind]
    rfl

namespace Statement

/-- Other blanks between two tokens of a statement that is no insertion, also where none stood. -/
theorem read_replace_gap {text : String} {s : Statement} {before after : List Spanned}
    {t u : Spanned} {gap : List Char} (h : read text = .ok s) (hs : s.verb ≠ .insert)
    (hscan : Token.scan text = .ok (before ++ t :: u :: after)) (hne : gap ≠ [])
    (hgap : ∀ c ∈ gap, Text.isBlank c = true) :
    read (String.ofList (text.toList.take t.stop ++ (gap ++ text.toList.drop u.start))) =
      .ok s := by
  obtain ⟨ts, ending, hts, hending, produced⟩ := read_eq_ok.mp h
  obtain ⟨vs, hvs, hmap⟩ := Token.scan_replace_gap hscan hne hgap
  have heq : ts ++ ending = before ++ t :: u :: after := Except.ok.inj (hts.symm.trans hscan)
  rw [← heq, List.map_append] at hmap
  obtain ⟨ts', ending', rfl, hts', hending'⟩ := List.map_eq_append_iff.mp hmap
  refine read_eq_ok.mpr ⟨ts', ending', hvs, ?_, produced.congr_tokens hs hts'⟩
  unfold IsEnding
  rwa [hending']

/-- A text is read as a statement exactly if its tokens, without the ending, form one of the
five productions; and the blanks between the tokens of a statement that is no insertion say
nothing. -/
theorem read_exactly_productions :
    (∀ text s, read text = .ok s ↔ ∃ ts ending, Token.scan text = .ok (ts ++ ending) ∧
      IsEnding ending ∧ Production text.toList ts s) ∧
    ∀ text s before t u after gap, read text = .ok s → s.verb ≠ .insert →
      Token.scan text = .ok (before ++ t :: u :: after) →
      gap ≠ [] → (∀ c ∈ gap, Text.isBlank c = true) →
      read (String.ofList (text.toList.take t.stop ++ (gap ++ text.toList.drop u.start))) =
        .ok s :=
  ⟨fun _ _ => read_eq_ok, fun _ _ _ _ _ _ _ => read_replace_gap⟩

/-- A tab and a line feed for the blank after a keyword. -/
theorem read_delete_spread :
    let text := "Delete FROM t WHERE c <='a''(' ;"
    let deletion : Statement :=
      { verb := .delete, table := "t", condition := some ⟨"c", .le, "a'("⟩ }
    read text = .ok deletion ∧
      read (String.ofList (text.toList.take 19 ++ (['\t', '\n'] ++ text.toList.drop 20))) =
        .ok deletion := by
  intro text deletion
  have hread : read text = .ok deletion := Outcome.toOption_eq_some.mp (by decide +kernel)
  have hscan : Token.scan text = .ok
      ([⟨.word "Delete", 0, 6⟩, ⟨.word "FROM", 7, 11⟩, ⟨.word "t", 12, 13⟩] ++
        ⟨.word "WHERE", 14, 19⟩ :: ⟨.word "c", 20, 21⟩ ::
        [⟨.operator .le, 22, 24⟩, ⟨.quoted "a'(", 24, 30⟩, ⟨.semicolon, 31, 32⟩,
          ⟨.endOfText, 32, 32⟩]) := Outcome.toOption_eq_some.mp (by decide +kernel)
  have hspread := read_exactly_productions.2 text deletion _ _ _ _ ['\t', '\n'] hread
    (by decide) hscan (by decide) (List.all_eq_true.mp (by decide))
  exact ⟨hread, hspread⟩

end Statement

end TableStore.Sql
