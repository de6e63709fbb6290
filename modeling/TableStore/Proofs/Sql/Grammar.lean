import TableStore.Sql.Grammar
import TableStore.Proofs.Sql.Production
import TableStore.Proofs.Sql.Tiling

/-! Reading accepts exactly the grammar. Every reader is described by the tokens it takes from
the front of a list and by what must not follow them. -/
namespace TableStore.Sql

open TableStore.Text

theorem Verb.ofWord?_eq_some {v : Verb} {w : String} : Verb.ofWord? w = some v ↔ v.Spells w := by
  constructor
  · intro h
    have := List.find?_some (p := fun v : Verb => v.keyword.toList == w.toList.map Char.toUpper) h
    exact (beq_iff_eq.mp this).symm
  · intro h
    unfold Verb.ofWord? Verb.Spells at *
    rw [h]
    cases v <;> rfl

theorem isTableName_iff {name : String} : isTableName name = true ↔ IsName name := by
  unfold isTableName IsName
  simp [List.all_eq_true]

namespace Grammar

variable {ts mid rest : List Spanned} {t : Token} {as bs : List Token} {what : String}

/-- These tokens stand at the front of a list, and `rest` after them. -/
def Takes (ts : List Spanned) (tokens : List Token) (rest : List Spanned) : Prop :=
  ∃ front, ts = front ++ rest ∧ front.map Spanned.token = tokens

theorem Takes.nil (ts : List Spanned) : Takes ts [] ts :=
  ⟨[], rfl, rfl⟩

theorem takes_nil : Takes ts [] rest ↔ ts = rest := by
  constructor
  · rintro ⟨front, rfl, h⟩
    rw [List.map_eq_nil_iff.mp h, List.nil_append]
  · rintro rfl
    exact .nil ts

theorem takes_append : Takes ts (as ++ bs) rest ↔ ∃ mid, Takes ts as mid ∧ Takes mid bs rest := by
  constructor
  · rintro ⟨front, rfl, h⟩
    obtain ⟨us, vs, rfl, hus, hvs⟩ := List.map_eq_append_iff.mp h
    exact ⟨vs ++ rest, ⟨us, List.append_assoc .., hus⟩, vs, rfl, hvs⟩
  · rintro ⟨mid, ⟨us, rfl, hus⟩, vs, rfl, hvs⟩
    exact ⟨us ++ vs, (List.append_assoc ..).symm, by rw [List.map_append, hus, hvs]⟩

theorem takes_cons : Takes ts (t :: as) rest ↔ ∃ u mid, ts = u :: mid ∧ u.token = t ∧
    Takes mid as rest := by
  constructor
  · rintro ⟨front, rfl, h⟩
    obtain ⟨u, us, rfl, hu, hus⟩ := List.map_eq_cons_iff.mp h
    exact ⟨u, us ++ rest, rfl, hu, us, rfl, hus⟩
  · rintro ⟨u, _, rfl, hu, us, rfl, hus⟩
    exact ⟨u :: us, rfl, by rw [List.map_cons, hu, hus]⟩

theorem Takes.trans (h : Takes ts as mid) (h' : Takes mid bs rest) : Takes ts (as ++ bs) rest :=
  takes_append.mpr ⟨mid, h, h'⟩

theorem takes_singleton : Takes ts [t] rest ↔ ∃ u, ts = u :: rest ∧ u.token = t := by
  simp only [takes_cons, takes_nil]
  constructor
  · rintro ⟨u, _, rfl, hu, rfl⟩
    exact ⟨u, rfl, hu⟩
  · rintro ⟨u, rfl, hu⟩
    exact ⟨u, rest, rfl, hu, rfl⟩

theorem current_eq (ht : t ≠ .endOfText) : current ts = t ↔ ∃ rest, Takes ts [t] rest := by
  simp only [takes_singleton]
  cases ts with
  | nil => simpa [current] using ht.symm
  | cons u ts => simp [current]

theorem expect_eq_ok (ht : t ≠ .endOfText) : expect t ts = .ok rest ↔ Takes ts [t] rest := by
  rw [takes_singleton]
  unfold expect unexpected
  cases ts with
  | nil => simp [current, ht.symm]
  | cons u ts =>
    by_cases h : u.token = t
    · simp [current, h]
    · simp [current, h]

theorem keyword_eq_ok {w : String} : keyword w ts = .ok rest ↔ Takes ts [.word w] rest :=
  expect_eq_ok nofun

theorem word_eq_ok {w : String} : word what ts = .ok (w, rest) ↔ Takes ts [.word w] rest := by
  rw [takes_singleton]
  unfold word unexpected
  cases ts with
  | nil => simp [current]
  | cons u ts =>
    simp only [current, List.tail_cons, List.cons.injEq]
    cases hu : u.token <;> simp [hu, and_comm]

theorem tableName_eq_ok {name : String} : tableName ts = .ok (name, rest) ↔
    IsName name ∧ Takes ts [.word name] rest := by
  simp only [tableName, Outcome.bind_eq_ok, Prod.exists, word_eq_ok]
  constructor
  · rintro ⟨n, us, h, hn⟩
    split at hn
    · next hname =>
      cases hn
      exact ⟨isTableName_iff.mp hname, h⟩
    · cases hn
  · rintro ⟨hname, h⟩
    refine ⟨name, rest, h, ?_⟩
    rw [if_pos (isTableName_iff.mpr hname)]
    rfl

/-- What follows a list that was read to its end. -/
theorem current_ne_comma : current ts ≠ .comma ↔
    ∀ start stop us, ts = ⟨.comma, start, stop⟩ :: us → False := by
  cases ts with
  | nil => simp [current]
  | cons u ts =>
    obtain ⟨t, start, stop⟩ := u
    constructor
    · rintro h _ _ _ ⟨⟩
      exact h rfl
    · rintro h rfl
      exact h _ _ _ rfl

theorem words_eq_ok {ws : List String} : words what ts = .ok (ws, rest) ↔
    ∃ tokens, WordList tokens ws ∧ Takes ts tokens rest ∧ current rest ≠ .comma := by
  constructor
  · intro h
    fun_induction words what ts generalizing ws with
    | case1 w start stop start' stop' ts ih =>
      obtain ⟨⟨others, us⟩, hothers, heq⟩ := Outcome.bind_eq_ok.mp h
      cases heq
      obtain ⟨tokens, hlist, htakes, hc⟩ := ih hothers
      exact ⟨_, .more w hlist, takes_cons.mpr ⟨_, _, rfl, rfl, takes_cons.mpr ⟨_, _, rfl, rfl,
        htakes⟩⟩, hc⟩
    | case2 w start stop ts hne =>
      cases h
      exact ⟨_, .one w, takes_singleton.mpr ⟨_, rfl, rfl⟩, current_ne_comma.mpr hne⟩
    | case3 => cases h
  · rintro ⟨tokens, hlist, htakes, hc⟩
    induction hlist generalizing ts with
    | one w =>
      obtain ⟨⟨_, start, stop⟩, rfl, rfl⟩ := takes_singleton.mp htakes
      exact words.eq_2 _ _ _ _ _ (current_ne_comma.mp hc)
    | more w tail ih =>
      obtain ⟨⟨_, start, stop⟩, _, rfl, rfl, hmore⟩ := takes_cons.mp htakes
      obtain ⟨⟨_, start', stop'⟩, mid, rfl, rfl, hmid⟩ := takes_cons.mp hmore
      rw [words, ih hmid]
      rfl

theorem wordGroup_eq_ok {ws : List String} : wordGroup what ts = .ok (ws, rest) ↔
    ∃ tokens, WordList tokens ws ∧
      Takes ts (.openParen :: (tokens ++ [.closeParen])) rest := by
  have hopen : Token.openParen ≠ .endOfText := nofun
  have hclose : Token.closeParen ≠ .endOfText := nofun
  simp only [wordGroup, Outcome.bind_eq_ok, Prod.exists, Outcome.pure_eq_ok, Prod.mk.injEq,
    expect_eq_ok hopen, expect_eq_ok hclose, words_eq_ok]
  constructor
  · rintro ⟨us, hus, _, vs, ⟨tokens, hlist, hvs, -⟩, _, hrest, rfl, rfl⟩
    exact ⟨tokens, hlist, hus.trans (hvs.trans hrest)⟩
  · rintro ⟨tokens, hlist, h⟩
    obtain ⟨us, hus, h⟩ := takes_append.mp (show Takes ts ([_] ++ _) rest from h)
    obtain ⟨vs, hvs, h⟩ := takes_append.mp h
    refine ⟨us, hus, ws, vs, ⟨tokens, hlist, hvs, ?_⟩, rest, h, rfl, rfl⟩
    obtain ⟨u, rfl, hu⟩ := takes_singleton.mp h
    rw [current, hu]
    nofun

theorem comparison?_eq_some {op : Comparison} : t.comparison? = some op ↔ t = .operator op := by
  cases t <;> simp [Token.comparison?]

theorem ofTokens_eq_ok {a b : Token} {c : Condition} : Condition.ofTokens a b t = .ok c ↔
    a = .word c.column ∧ b = .operator c.op ∧ t.literal? = some c.literal := by
  unfold Condition.ofTokens
  constructor
  · intro h
    split at h
    · next hb ht =>
      cases h
      exact ⟨rfl, comparison?_eq_some.mp hb, ht⟩
    all_goals cases h
  · rintro ⟨rfl, rfl, ht⟩
    simp [Token.comparison?, ht]

theorem condition_eq_ok {c : Option Condition} : condition ts = .ok (c, rest) ↔
    ∃ tokens, WhereClause tokens c ∧ Takes ts tokens rest ∧
      (tokens = [] → current rest ≠ .word "WHERE") := by
  unfold condition
  constructor
  · intro h
    split at h
    · next hw =>
      obtain ⟨⟨column, op, value⟩, hc, heq⟩ := Outcome.bind_eq_ok.mp h
      cases heq
      obtain ⟨h₁, h₂, h₃⟩ := ofTokens_eq_ok.mp hc
      -- A token that is not the end of the text is there, so none of the four is missing.
      match ts with
      | [] | [_] | [_, _] => cases h₂
      | [_, _, _] => cases h₃
      | a :: b :: c :: d :: ts =>
        refine ⟨_, .given column op h₃, ⟨[a, b, c, d], rfl, ?_⟩, nofun⟩
        exact congr (congrArg List.cons hw) (congr (congrArg List.cons h₁)
          (congr (congrArg List.cons h₂) rfl))
    · next hw =>
      cases h
      exact ⟨[], .absent, .nil ts, fun _ => hw⟩
  · rintro ⟨tokens, hclause, htakes, hw⟩
    cases hclause with
    | absent =>
      obtain rfl := takes_nil.mp htakes
      rw [if_neg (hw rfl)]
    | @given column op t value literal =>
      obtain ⟨a, _, rfl, ha, htakes⟩ := takes_cons.mp htakes
      obtain ⟨b, _, rfl, hb, htakes⟩ := takes_cons.mp htakes
      obtain ⟨c, _, rfl, hc, htakes⟩ := takes_cons.mp htakes
      obtain ⟨d, rfl, hd⟩ := takes_singleton.mp htakes
      have hread : Condition.ofTokens b.token c.token d.token = .ok ⟨column, op, value⟩ :=
        ofTokens_eq_ok.mpr ⟨hb, hc, hd ▸ literal⟩
      rw [if_pos (show current (a :: _) = _ from ha)]
      exact Outcome.bind_eq_ok.mpr ⟨_, hread, rfl⟩

theorem order_eq_ok {o : Option String} : order ts = .ok (o, rest) ↔
    ∃ tokens, OrderClause tokens o ∧ Takes ts tokens rest ∧
      (tokens = [] → current rest ≠ .word "ORDER") := by
  unfold order
  constructor
  · intro h
    split at h
    · next ho =>
      obtain ⟨us, hus, h⟩ := Outcome.bind_eq_ok.mp h
      obtain ⟨⟨column, vs⟩, hvs, h⟩ := Outcome.bind_eq_ok.mp h
      cases h
      obtain ⟨mid, hmid⟩ := (current_eq (t := .word "ORDER") nofun).mp ho
      obtain ⟨u, rfl, -⟩ := takes_singleton.mp hmid
      exact ⟨_, .given column, hmid.trans ((keyword_eq_ok.mp hus).trans (word_eq_ok.mp hvs)), nofun⟩
    · next ho =>
      cases h
      exact ⟨[], .absent, .nil ts, fun _ => ho⟩
  · rintro ⟨tokens, hclause, htakes, ho⟩
    cases hclause with
    | absent =>
      obtain rfl := takes_nil.mp htakes
      rw [if_neg (ho rfl)]
    | given column =>
      obtain ⟨u, _, rfl, hu, htakes⟩ := takes_cons.mp htakes
      obtain ⟨mid, hby, hcolumn⟩ := takes_append.mp (show Takes _ ([_] ++ [_]) rest from htakes)
      rw [if_pos (show current (u :: _) = _ from hu)]
      exact Outcome.bind_eq_ok.mpr ⟨mid, keyword_eq_ok.mpr hby,
        Outcome.bind_eq_ok.mpr ⟨_, word_eq_ok.mpr hcolumn, rfl⟩⟩

theorem assignments_eq_ok {pairs : List (String × String)} : assignments ts = .ok (pairs, rest) ↔
    ∃ tokens, AssignmentList tokens pairs ∧ Takes ts tokens rest ∧ current rest ≠ .comma := by
  constructor
  · intro h
    fun_induction assignments ts generalizing pairs with
    | case1 => cases h
    | case2 column start stop start' stop' t value ht start'' stop'' more ih =>
      obtain ⟨⟨others, us⟩, hothers, heq⟩ := Outcome.bind_eq_ok.mp h
      cases heq
      obtain ⟨tokens, hlist, ⟨front, rfl, rfl⟩, hc⟩ := ih hothers
      exact ⟨_, .more column ht hlist, ⟨_ :: _ :: _ :: _ :: front, rfl, rfl⟩, hc⟩
    | case3 column start stop start' stop' t ts value ht hne =>
      cases h
      exact ⟨_, .one column ht, ⟨[_, _, _], rfl, rfl⟩, current_ne_comma.mpr hne⟩
    | case4 => cases h
    | case5 => cases h
    | case6 => cases h
  · rintro ⟨tokens, hlist, htakes, hc⟩
    induction hlist generalizing ts with
    | one column literal =>
      obtain ⟨⟨_, start, stop⟩, _, rfl, rfl, hmore⟩ := takes_cons.mp htakes
      obtain ⟨⟨_, start', stop'⟩, _, rfl, rfl, hvalue⟩ := takes_cons.mp hmore
      obtain ⟨v, rfl, rfl⟩ := takes_singleton.mp hvalue
      unfold assignments
      rw [literal]
      simp only
      split
      · exact absurd rfl hc
      · rfl
    | more column literal tail ih =>
      obtain ⟨⟨_, start, stop⟩, _, rfl, rfl, hmore⟩ := takes_cons.mp htakes
      obtain ⟨⟨_, start', stop'⟩, _, rfl, rfl, hvalue⟩ := takes_cons.mp hmore
      obtain ⟨v, _, rfl, rfl, hcomma⟩ := takes_cons.mp hvalue
      obtain ⟨⟨_, start'', stop''⟩, mid, rfl, rfl, hmid⟩ := takes_cons.mp hcomma
      unfold assignments
      rw [literal]
      exact Outcome.bind_eq_ok.mpr ⟨_, ih hmid, rfl⟩

/-- What closes `depth` inner groups, up to the parenthesis that closes the outer one. -/
inductive Closes : Nat → List Token → Prop
  | here {us : List Token} (inner : Balanced us) : Closes 0 us
  | inner {depth : Nat} {us ts : List Token} (inner : Balanced us) (tail : Closes depth ts) :
      Closes (depth + 1) (us ++ .closeParen :: ts)

theorem Closes.plain {depth : Nat} (ht : t ∉ [.openParen, .closeParen, .endOfText])
    (h : Closes depth as) : Closes depth (t :: as) := by
  cases h with
  | here inner => exact .here (.plain ht inner)
  | inner inner tail => exact .inner (.plain ht inner) tail

theorem Closes.opened {depth : Nat} (h : Closes (depth + 1) as) :
    Closes depth (.openParen :: as) := by
  cases h with
  | @inner _ us _ inner tail =>
    cases tail with
    | here outer => exact .here (.group inner outer)
    | inner outer tail =>
      have := Closes.inner (.group inner outer) tail
      simpa using this

theorem closing_append_balanced {us : List Spanned} {depth : Nat}
    (h : Balanced (us.map Spanned.token)) : closing depth (us ++ ts) = closing depth ts := by
  generalize htokens : us.map Spanned.token = tokens at h
  induction h generalizing us ts depth with
  | nil => rw [List.map_eq_nil_iff.mp htokens, List.nil_append]
  | plain other tail ih =>
    obtain ⟨u, us, rfl, rfl, hus⟩ := List.map_eq_cons_iff.mp htokens
    simp only [List.mem_cons, List.not_mem_nil, or_false, not_or] at other
    rw [List.cons_append, closing.eq_def]
    simp only
    split
    · next h => exact absurd h other.1
    · next h => exact absurd h other.2.1
    · next h => exact absurd h other.2.2
    · exact ih hus
  | group inner tail ihInner ihTail =>
    obtain ⟨u, us, rfl, hu, hus⟩ := List.map_eq_cons_iff.mp htokens
    obtain ⟨us, vs, rfl, hinner, hvs⟩ := List.map_eq_append_iff.mp hus
    obtain ⟨v, vs, rfl, hv, hvs⟩ := List.map_eq_cons_iff.mp hvs
    rw [List.cons_append, closing.eq_def]
    simp only [hu]
    rw [List.append_assoc, ihInner hinner, List.cons_append, closing.eq_def]
    simp only [hv]
    exact ihTail hvs

theorem closing_eq_ok {depth start : Nat} : closing depth ts = .ok (start, rest) ↔
    ∃ inner u, ts = inner ++ u :: rest ∧ u.token = .closeParen ∧ u.start = start ∧
      Closes depth (inner.map Spanned.token) := by
  constructor
  · intro h
    induction ts generalizing depth with
    | nil => cases h
    | cons t ts ih =>
      unfold closing at h
      split at h
      · next ht =>
        obtain ⟨inner, u, rfl, hu, hstart, hcloses⟩ := ih h
        exact ⟨t :: inner, u, rfl, hu, hstart, by rw [List.map_cons, ht]; exact hcloses.opened⟩
      · next ht =>
        split at h
        · cases h
          exact ⟨[], t, rfl, ht, rfl, .here .nil⟩
        · obtain ⟨inner, u, rfl, hu, hstart, hcloses⟩ := ih h
          refine ⟨t :: inner, u, rfl, hu, hstart, ?_⟩
          rw [List.map_cons, ht]
          exact .inner .nil hcloses
      · cases h
      · next hopen hclose hend =>
        obtain ⟨inner, u, rfl, hu, hstart, hcloses⟩ := ih h
        refine ⟨t :: inner, u, rfl, hu, hstart, hcloses.plain ?_⟩
        simp only [List.mem_cons, List.not_mem_nil, or_false, not_or]
        exact ⟨hopen, hclose, hend⟩
  · rintro ⟨inner, u, rfl, hu, rfl, hcloses⟩
    generalize htokens : inner.map Spanned.token = tokens at hcloses
    induction hcloses generalizing inner with
    | here balanced =>
      subst htokens
      rw [closing_append_balanced balanced, closing, hu]
    | inner balanced tail ih =>
      obtain ⟨us, vs, rfl, rfl, hvs⟩ := List.map_eq_append_iff.mp htokens
      obtain ⟨v, vs, rfl, hv, hvs⟩ := List.map_eq_cons_iff.mp hvs
      rw [List.append_assoc, closing_append_balanced balanced, List.cons_append, closing, hv]
      exact ih vs hvs

/-- A group is read from its opening parenthesis to its partner. -/
theorem closing_zero_eq_ok {start : Nat} : closing 0 ts = .ok (start, rest) ↔
    ∃ inner u, ts = inner ++ u :: rest ∧ u.token = .closeParen ∧ u.start = start ∧
      Balanced (inner.map Spanned.token) := by
  rw [closing_eq_ok]
  constructor
  · rintro ⟨inner, u, hts, hu, hstart, ⟨balanced⟩⟩
    exact ⟨inner, u, hts, hu, hstart, balanced⟩
  · rintro ⟨inner, u, hts, hu, hstart, balanced⟩
    exact ⟨inner, u, hts, hu, hstart, .here balanced⟩

section Groups

variable {text : List Char} {front : List Spanned} {values : List String}

theorem groups_last (group : Group text front values) (hc : current ts ≠ .comma) :
    groups text (front ++ ts) = .ok ([values], ts) := by
  obtain ⟨⟨_, start, stop⟩, inner, u, rfl, rfl, balanced, hu, hvalues⟩ := group
  have hclose : closing 0 (inner ++ [u] ++ ts) = .ok (u.start, ts) :=
    closing_zero_eq_ok.mpr ⟨inner, u, by simp, hu, rfl, balanced⟩
  rw [List.cons_append, groups.eq_def]
  simp only
  split
  · next h => cases hclose.symm.trans h
  · next h =>
    cases hclose.symm.trans h
    rw [hvalues, Outcome.ok_bind]
    split
    · exact absurd rfl hc
    · rfl

theorem groups_more (group : Group text front values) {u : Spanned} (hu : u.token = .comma) :
    groups text (front ++ u :: ts) =
      (groups text ts).map fun (others, rest) => (values :: others, rest) := by
  obtain ⟨⟨_, start, stop⟩, inner, v, rfl, rfl, balanced, hv, hvalues⟩ := group
  obtain ⟨_, start', stop'⟩ := u
  obtain rfl := hu
  have hclose : closing 0 (inner ++ [v] ++ ⟨.comma, start', stop'⟩ :: ts) =
      .ok (v.start, ⟨.comma, start', stop'⟩ :: ts) :=
    closing_zero_eq_ok.mpr ⟨inner, v, by simp, hv, rfl, balanced⟩
  rw [List.cons_append, groups.eq_def]
  simp only
  split
  · next h => cases hclose.symm.trans h
  · next h =>
    cases hclose.symm.trans h
    rw [hvalues, Outcome.ok_bind]
    rfl

theorem groups_eq_ok {gs : List (List String)} : groups text ts = .ok (gs, rest) ↔
    ∃ front, ts = front ++ rest ∧ GroupList text front gs ∧ current rest ≠ .comma := by
  constructor
  · intro h
    fun_induction groups text ts generalizing gs with
    | case1 => cases h
    | case2 start stop ts close after hclose ih =>
      obtain ⟨inner, u, rfl, hu, rfl, balanced⟩ := closing_zero_eq_ok.mp hclose
      obtain ⟨values, hvalues, h⟩ := Outcome.bind_eq_ok.mp h
      have group : Group text (⟨.openParen, start, stop⟩ :: (inner ++ [u])) values :=
        ⟨_, inner, u, rfl, rfl, balanced, hu, hvalues⟩
      split at h
      · next start' stop' more _ =>
        obtain ⟨⟨others, us⟩, hothers, heq⟩ := Outcome.bind_eq_ok.mp h
        cases heq
        obtain ⟨front, rfl, hlist, hc⟩ := ih _ _ _ rfl hothers
        have comma : (⟨.comma, start', stop'⟩ : Spanned).token = .comma := rfl
        exact ⟨_, by simp, .more group comma hlist, hc⟩
      · next hne =>
        cases h
        exact ⟨_, by simp, .one group, current_ne_comma.mpr hne⟩
    | case3 => cases h
  · rintro ⟨front, rfl, hlist, hc⟩
    induction hlist with
    | one group => exact groups_last group hc
    | more group comma tail ih =>
      rw [List.append_assoc, List.cons_append, groups_more group comma, ih]
      rfl

end Groups

end Grammar

end TableStore.Sql
