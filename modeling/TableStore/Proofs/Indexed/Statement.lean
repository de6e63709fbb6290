import TableStore.Proofs.Indexed.Scan
import TableStore.Proofs.Sql.Grammar

/-! Reading statements with the tokens by position. Only the groups of an insertion look up
tokens and cut the text; the parentheses they look up are those that the grammar has found. -/
namespace TableStore.Indexed

open TableStore.Sql

variable {text : List Char} {ts rest : List Spanned} {t : Spanned}

/-- The token at a position; the end of the text behind the last one. -/
def current (ts : List Spanned) (i : Nat) : Token :=
  Grammar.current (ts.drop i)

/-- The text between two positions, cut off at its end. -/
def slice (text : List Char) (start stop : Nat) : Indexed (List Char) :=
  let stop := min stop text.length
  range text (min start stop) stop

/-- The position, from one on, of the parenthesis that closes the outermost of `depth` open
groups. -/
def closing (ts : List Spanned) : Nat → Nat → Nat → Indexed Nat
  | 0, _, _ => endless
  | n + 1, depth, i => do
    match current ts i with
    | .openParen => closing ts n (depth + 1) (i + 1)
    | .closeParen =>
      let depth ← minus depth 1
      if depth = 0 then return i else closing ts n depth (i + 1)
    | .endOfText => throw (.unexpectedToken ")" Token.endOfText.text)
    | _ => closing ts n depth (i + 1)

def group (text : List Char) (ts : List Spanned) (i : Nat) : Indexed (List String × Nat) := do
  if current ts i = .openParen then
    let opened ← get ts i
    let i ← closing ts (ts.length + 1) 1 (i + 1)
    let closed ← get ts i
    let inner ← slice text opened.stop closed.start
    let values ← of (ValueGroup.read (String.ofList inner))
    return (values, i + 1)
  else throw (.unexpectedToken "(" (current ts i).text)

def groups (text : List Char) (ts : List Spanned) : Nat → Nat → Indexed (List (List String) × Nat)
  | 0, _ => endless
  | n + 1, i => do
    let (values, i) ← group text ts i
    if current ts i = .comma then
      let (others, i) ← groups text ts n (i + 1)
      return (values :: others, i)
    else return ([values], i)

def insert (text : List Char) (ts : List Spanned) : Indexed (Statement × List Spanned) := do
  let ts ← of (Grammar.keyword "INTO" ts)
  let (table, ts) ← of (Grammar.tableName ts)
  let (columns, ts) ← of (Grammar.wordGroup "column name" ts)
  let ts ← of (Grammar.keyword "VALUES" ts)
  let (groups, i) ← groups text ts (ts.length + 1) 0
  return ({ verb := .insert, table, columns, groups }, ts.drop i)

def body (text : List Char) (ts : List Spanned) : Verb → Indexed (Statement × List Spanned)
  | .insert => insert text ts
  | verb => of (Grammar.body text ts verb)

def statement (text : String) : Indexed Statement := do
  let ts ← tokens text.toList (text.toList.length + 1) 0
  let verb ← of (Grammar.verb (Grammar.current ts))
  let (statement, ts) ← body text.toList ts.tail verb
  of (Grammar.finish ts)
  return statement

theorem current_position (h : rest <:+ ts) :
    current ts (position ts rest) = Grammar.current rest := by
  rw [current, drop_position h]

theorem eq_cons_of_current {token : Token} (h : Grammar.current ts = token)
    (ht : token ≠ .endOfText) : ∃ start stop more, ts = ⟨token, start, stop⟩ :: more := by
  obtain ⟨more, htakes⟩ := (Grammar.current_eq ht).mp h
  obtain ⟨⟨_, start, stop⟩, rfl, rfl⟩ := Grammar.takes_singleton.mp htakes
  exact ⟨start, stop, more, rfl⟩

/-- Cutting off at the end changes nothing. -/
theorem slice_eq (text : List Char) (start stop : Nat) :
    slice text start stop = of (.ok (Sql.slice text start stop)) := by
  unfold slice
  rw [range_eq (Nat.min_le_right _ _) (Nat.min_le_right _ _), Sql.slice]
  congr 2
  by_cases h : start ≤ min stop text.length
  · rw [Nat.min_eq_left h, List.take_eq_take_iff, List.length_drop]
    omega
  · rw [Nat.min_eq_right (Nat.le_of_not_le h), Nat.sub_self, List.take_zero, eq_comm,
      List.take_eq_nil_iff, List.drop_eq_nil_iff]
    omega

theorem closing_eq {n depth : Nat} (h : rest <:+ ts) (hn : rest.length < n) :
    closing ts n (depth + 1) (position ts rest) =
      of ((Grammar.closing depth rest).map fun p => position ts p.2 - 1) := by
  induction rest generalizing n depth with
  | nil =>
    obtain ⟨n, rfl⟩ := Nat.exists_eq_add_one_of_ne_zero (Nat.ne_zero_of_lt hn)
    rw [closing, current_position h]
    rfl
  | cons t rest ih =>
    obtain ⟨n, rfl⟩ := Nat.exists_eq_add_one_of_ne_zero (Nat.ne_zero_of_lt hn)
    have hrest := suffix_of_cons h
    have shorter := Nat.lt_of_succ_lt_succ hn
    rw [closing, current_position h, position_succ h, Grammar.closing.eq_def]
    obtain ⟨token, start, stop⟩ := t
    cases token with
    | openParen => exact ih hrest shorter
    | closeParen =>
      dsimp only [Grammar.current]
      rw [minus_eq (Nat.le_add_left 1 _), ok_bind, Nat.add_sub_cancel]
      cases depth with
      | zero =>
        rw [if_pos rfl, Except.map, position_pred h]
        rfl
      | succ depth =>
        rw [if_neg (Nat.succ_ne_zero _)]
        exact ih hrest shorter
    | endOfText => rfl
    | _ => exact ih hrest shorter

section Group

variable {after : List Spanned} {start stop close : Nat}

theorem group_of_not_open (h : rest <:+ ts) (hopen : Grammar.current rest ≠ .openParen) :
    group text ts (position ts rest) = of (Grammar.unexpected "(" rest) := by
  unfold group
  rw [current_position h, if_neg hopen]
  rfl

theorem group_of_unclosed {fault : Fault} (h : ⟨.openParen, start, stop⟩ :: rest <:+ ts)
    (hclose : Grammar.closing 0 rest = .error fault) :
    group text ts (position ts (⟨.openParen, start, stop⟩ :: rest)) = of (.error fault) := by
  have hrest := suffix_of_cons h
  have enough := Nat.lt_succ_of_le hrest.length_le
  have hopen : Grammar.current (⟨.openParen, start, stop⟩ :: rest) = .openParen := rfl
  unfold group
  rw [current_position h, if_pos hopen, get_position h, ok_bind, position_succ h,
    closing_eq hrest enough, hclose]
  rfl

theorem suffix_of_closing (h : rest <:+ ts) (hclose : Grammar.closing 0 rest = .ok (close, after)) :
    ∃ u, u.start = close ∧ u :: after <:+ ts := by
  obtain ⟨inner, u, rfl, -, hstart, -⟩ := Grammar.closing_eq_ok.mp hclose
  exact ⟨u, hstart, (List.suffix_append _ _).trans h⟩

theorem group_of_closed (h : ⟨.openParen, start, stop⟩ :: rest <:+ ts)
    (hclose : Grammar.closing 0 rest = .ok (close, after)) :
    group text ts (position ts (⟨.openParen, start, stop⟩ :: rest)) =
      of ((ValueGroup.read (String.ofList (Sql.slice text stop close))).map fun values =>
        (values, position ts after)) := by
  have hrest := suffix_of_cons h
  have enough := Nat.lt_succ_of_le hrest.length_le
  obtain ⟨u, rfl, hu⟩ := suffix_of_closing hrest hclose
  have hopen : Grammar.current (⟨.openParen, start, stop⟩ :: rest) = .openParen := rfl
  unfold group
  rw [current_position h, if_pos hopen, get_position h, ok_bind, position_succ h,
    closing_eq hrest enough, hclose, Except.map, ok_bind, position_pred hu, get_position hu,
    ok_bind, slice_eq, ok_bind, position_succ hu]
  cases ValueGroup.read (String.ofList (Sql.slice text stop u.start)) <;> rfl

end Group

theorem groups_eq (text : List Char) {n : Nat} (h : rest <:+ ts) (hn : rest.length < n) :
    groups text ts n (position ts rest) =
      of ((Grammar.groups text rest).map fun p => (p.1, position ts p.2)) := by
  fun_induction Grammar.groups text rest generalizing n
  all_goals obtain ⟨n, rfl⟩ := Nat.exists_eq_add_one_of_ne_zero (Nat.ne_zero_of_lt hn)
  case case1 start stop rest fault hclose =>
    rw [groups, group_of_unclosed h hclose]
    rfl
  case case2 start stop rest close after hclose ih =>
    obtain ⟨u, -, hu⟩ := suffix_of_closing (suffix_of_cons h) hclose
    have hafter := suffix_of_cons hu
    have shorter : after.length < n :=
      Nat.lt_of_lt_of_le (Grammar.closing_length hclose) (Nat.le_of_lt_succ (Nat.lt_of_succ_lt hn))
    rw [groups, group_of_closed h hclose]
    cases ValueGroup.read (String.ofList (Sql.slice text stop close)) with
    | error fault => rfl
    | ok values =>
      rw [Except.map, ok_bind, Outcome.ok_bind]
      dsimp only
      rw [current_position hafter]
      by_cases hc : Grammar.current after = .comma
      · obtain ⟨start', stop', more, rfl⟩ := eq_cons_of_current hc (by decide)
        rw [if_pos hc, position_succ hafter,
          ih _ _ _ rfl (suffix_of_cons hafter) (Nat.lt_of_succ_lt shorter)]
        dsimp only
        cases Grammar.groups text more <;> rfl
      · rw [if_neg hc]
        split
        · exact absurd rfl hc
        · rfl
  case case3 rest hopen =>
    rw [groups, group_of_not_open h]
    · rfl
    · intro hc
      obtain ⟨start, stop, more, rfl⟩ := eq_cons_of_current hc (by decide)
      exact hopen _ _ _ rfl

theorem insert_eq (text : List Char) (ts : List Spanned) :
    insert text ts = of (Grammar.insert text ts) := by
  refine bind_eq rfl fun ts _ => ?_
  refine bind_eq rfl fun (table, ts) _ => ?_
  refine bind_eq rfl fun (columns, ts) _ => ?_
  refine bind_eq rfl fun ts _ => ?_
  have hgroups := groups_eq text (List.suffix_refl ts) (Nat.lt_succ_self _)
  rw [position_self] at hgroups
  dsimp only
  rw [hgroups]
  cases hread : Grammar.groups text ts with
  | error fault => rfl
  | ok p =>
    obtain ⟨front, hts, -⟩ := Grammar.groups_eq_ok.mp hread
    rw [Except.map, ok_bind, Outcome.ok_bind]
    dsimp only
    rw [drop_position ⟨front, hts.symm⟩]
    rfl

theorem body_eq (text : List Char) (ts : List Spanned) (verb : Verb) :
    body text ts verb = of (Grammar.body text ts verb) := by
  cases verb with
  | insert => exact insert_eq text ts
  | _ => rfl

theorem statement_eq (text : String) : statement text = of (Statement.read text) := by
  refine bind_eq (tokens_eq_scan text) fun ts _ => ?_
  refine bind_eq rfl fun verb _ => ?_
  refine bind_eq (body_eq _ _ verb) fun (statement, ts) _ => ?_
  exact bind_eq rfl fun _ _ => rfl

end TableStore.Indexed
