import TableStore.Proofs.Indexed.Outcome
import TableStore.Proofs.Sql.Tiling

/-! Scanning by position. Every step of it stands where the rest of the text begins that the
scanner on texts would take next, so no position that is looked up is behind the end. -/
namespace TableStore.Indexed

open TableStore.Text TableStore.Sql

variable {input rest more : List Char} {c : Char}

/-- Whether a character stands at a position, which may be the end of the text. -/
def standsAt (input : List Char) (i : Nat) (c : Char) : Indexed Bool := do
  if i < input.length then return decide (c = (← get input i)) else return false

/-- The longest run of characters with `p` from a position on, and where it stops. The first
number bounds the steps, here and in the loops below. -/
def span (p : Char → Bool) (input : List Char) : Nat → Nat → Indexed (List Char × Nat)
  | 0, _ => endless
  | n + 1, i => do
    if i < input.length then
      let c ← get input i
      if p c then
        let (cs, stop) ← span p input n (i + 1)
        return (c :: cs, stop)
      else return ([], i)
    else return ([], i)

/-- A quoted text that opened at `start`, from a position behind its opening quote on, and where
it stops. -/
def quoted (start : Nat) (input : List Char) : Nat → Nat → Indexed (List Char × Nat)
  | 0, _ => endless
  | n + 1, i => do
    if i < input.length then
      let c ← get input i
      if c = quoteMark then
        if ← standsAt input (i + 1) quoteMark then
          let (cs, stop) ← quoted start input n (i + 2)
          return (quoteMark :: cs, stop)
        else return ([], i + 1)
      else
        let (cs, stop) ← quoted start input n (i + 1)
        return (c :: cs, stop)
    else throw (.unterminatedText start)

def token (input : List Char) (i : Nat) : Indexed (Token × Nat) := do
  if i < input.length then
    match ← get input i with
    | '(' => return (.openParen, i + 1)
    | ')' => return (.closeParen, i + 1)
    | ',' => return (.comma, i + 1)
    | ';' => return (.semicolon, i + 1)
    | '=' => return (.operator .eq, i + 1)
    | '<' =>
      if ← standsAt input (i + 1) '=' then return (.operator .le, i + 2)
      else return (.operator .lt, i + 1)
    | '>' =>
      if ← standsAt input (i + 1) '=' then return (.operator .ge, i + 2)
      else return (.operator .gt, i + 1)
    | '!' =>
      if ← standsAt input (i + 1) '=' then return (.operator .ne, i + 2)
      else throw (.unexpectedCharacter '!' (← minus (i + 1) 1))
    | '\'' =>
      let (cs, stop) ← quoted i input (input.length + 1) (i + 1)
      return (.quoted (String.ofList cs), stop)
    | _ =>
      let (cs, stop) ← span (fun d => !Token.isDelimiter d) input (input.length + 1) i
      return (.word (String.ofList cs), stop)
  else return (.endOfText, i)

def tokens (input : List Char) : Nat → Nat → Indexed (List Spanned)
  | 0, _ => endless
  | n + 1, i => do
    let (_, start) ← span isBlank input (input.length + 1) i
    let (token, stop) ← token input start
    if token = .endOfText then return [⟨token, start, stop⟩]
    else
      let ts ← tokens input n stop
      return ⟨token, start, stop⟩ :: ts

theorem standsAt_eq (h : rest <:+ input) (c : Char) :
    standsAt input (position input rest) c = of (.ok (decide (rest.head? = some c))) := by
  unfold standsAt
  cases rest with
  | nil =>
    rw [position_nil, if_neg (Nat.lt_irrefl _)]
    rfl
  | cons d rest =>
    rw [if_pos (position_lt h), get_position h]
    simp [eq_comm]

theorem position_span (p : Char → Bool) (h : rest <:+ input) :
    position input rest + (rest.takeWhile p).length = position input (rest.dropWhile p) := by
  have parts : rest.takeWhile p ++ rest.dropWhile p = rest := List.takeWhile_append_dropWhile
  have := position_append _ (parts.symm ▸ h)
  rwa [parts] at this

theorem span_eq (p : Char → Bool) {n : Nat} (h : rest <:+ input) (hn : rest.length < n) :
    span p input n (position input rest) =
      of (.ok (rest.takeWhile p, position input (rest.dropWhile p))) := by
  induction rest generalizing n with
  | nil =>
    obtain ⟨n, rfl⟩ := Nat.exists_eq_add_one_of_ne_zero (Nat.ne_zero_of_lt hn)
    rw [span, position_nil, if_neg (Nat.lt_irrefl _)]
    rfl
  | cons c rest ih =>
    obtain ⟨n, rfl⟩ := Nat.exists_eq_add_one_of_ne_zero (Nat.ne_zero_of_lt hn)
    rw [span, if_pos (position_lt h), get_position h, ok_bind, position_succ h,
      ih (suffix_of_cons h) (Nat.lt_of_succ_lt_succ hn)]
    cases hp : p c <;> simp [hp]

/-- As many steps as there are positions are enough. -/
theorem span_eq_of_length (p : Char → Bool) (h : rest <:+ input) :
    span p input (input.length + 1) (position input rest) =
      of (.ok (rest.takeWhile p, position input (rest.dropWhile p))) :=
  span_eq p h (Nat.lt_succ_of_le h.length_le)

theorem quoted_eq (start : Nat) {n : Nat} (h : rest <:+ input) (hn : rest.length < n) :
    quoted start input n (position input rest) = of (match readQuoted rest with
      | some (text, after) => .ok (text, position input after)
      | none => .error (.unterminatedText start)) := by
  fun_induction readQuoted rest generalizing n
  all_goals obtain ⟨n, rfl⟩ := Nat.exists_eq_add_one_of_ne_zero (Nat.ne_zero_of_lt hn)
  case case1 =>
    rw [quoted, position_nil, if_neg (Nat.lt_irrefl _)]
    rfl
  case case2 =>
    rw [quoted, if_pos (position_lt h), get_position h, ok_bind, position_succ h,
      standsAt_eq (suffix_of_cons h)]
    simp
  case case3 c hc =>
    have again : 0 < n := Nat.lt_of_succ_lt_succ hn
    obtain ⟨n, rfl⟩ := Nat.exists_eq_add_one_of_ne_zero (Nat.ne_zero_of_lt again)
    rw [quoted, if_pos (position_lt h), get_position h, ok_bind, if_neg hc, position_succ h,
      quoted, position_nil, if_neg (Nat.lt_irrefl _)]
    rfl
  case case4 rest ih =>
    have hrest := suffix_of_cons h
    have shorter : rest.length < n := Nat.lt_of_succ_lt (Nat.lt_of_succ_lt_succ hn)
    rw [quoted, if_pos (position_lt h), get_position h, ok_bind, position_succ_succ h,
      position_succ h, standsAt_eq hrest, ih (suffix_of_cons hrest) shorter]
    cases readQuoted rest <;> rfl
  case case5 d rest hd =>
    rw [quoted, if_pos (position_lt h), get_position h, ok_bind, position_succ h,
      standsAt_eq (suffix_of_cons h)]
    simp [hd]
  case case6 c d rest hc ih =>
    rw [quoted, if_pos (position_lt h), get_position h, ok_bind, if_neg hc, position_succ h,
      ih (suffix_of_cons h) (Nat.lt_of_succ_lt_succ hn)]
    cases readQuoted (d :: rest) <;> rfl

theorem token_eq (hb : isBlank c = false) (h : c :: rest <:+ input) :
    token input (position input (c :: rest)) =
      of ((Token.next (position input (c :: rest)) c rest).map fun p =>
        (p.1, position input p.2)) := by
  have hrest := suffix_of_cons h
  have before : minus (position input rest) 1 = of (.ok (position input (c :: rest))) := by
    rw [← position_succ h, minus_eq (Nat.le_add_left 1 _), Nat.add_sub_cancel]
  unfold token Token.next
  rw [if_pos (position_lt h), get_position h, ok_bind, position_succ h]
  split
  -- The operators, which may be one character long or two.
  case h_6 | h_7 | h_8 =>
    rw [standsAt_eq hrest, ok_bind, Token.symbol?_cons]
    by_cases hd : rest.head? = some '='
    · obtain ⟨more, rfl⟩ := List.head?_eq_some_iff.mp hd
      rw [position_succ_succ h]
      rfl
    · simp [hd, before, Except.map, Token.spelling, Token.text, Comparison.symbol]
  case h_9 =>
    rw [quoted_eq _ hrest (Nat.lt_succ_of_le hrest.length_le), Token.symbol?_cons]
    cases readQuoted rest with
    | none => simp [quoteMark, Except.map]
    | some p => simp [quoteMark, Except.map]
  case h_10 =>
    have hbang : c ≠ '!' := ‹_›
    have hq : c ≠ quoteMark := ‹_›
    have hc : Token.isDelimiter c = false := by
      rw [Token.isDelimiter_eq_false]
      refine ⟨hb, ?_⟩
      simp only [List.mem_cons, List.not_mem_nil, or_false, not_or]
      and_intros <;> assumption
    rw [span_eq_of_length _ h, Token.symbol?_of_isDelimiter_eq_false hc, if_neg hbang, if_neg hq]
    simp [hc, Except.map]
  all_goals
    rw [Token.symbol?_cons]
    simp [Except.map, Token.spelling, Token.text, Comparison.symbol]

theorem tokens_of_dropWhile (n : Nat) (h : rest <:+ input)
    (hc : rest.dropWhile isBlank = c :: more) :
    tokens input (n + 1) (position input rest) =
      (of (Token.next (position input (c :: more)) c more) >>= fun (t, after) => do
        let ts ← tokens input n (position input after)
        return ⟨t, position input (c :: more), position input after⟩ :: ts) := by
  have hb : isBlank c = false := head?_dropWhile isBlank rest c (by rw [hc]; rfl)
  have hmore : c :: more <:+ input := hc ▸ (List.dropWhile_suffix _).trans h
  rw [tokens, span_eq_of_length _ h, ok_bind, hc]
  dsimp only
  rw [token_eq hb hmore]
  cases hn : Token.next (position input (c :: more)) c more with
  | error fault => rfl
  | ok p =>
    have hends := ((Token.next_eq_ok hb).mp hn).2
    have hne : p.1 ≠ .endOfText := by
      intro he
      rw [he] at hends
      exact hends
    simp [Except.map, hne]

/-- Every token takes at least one character, so that the steps are enough. -/
theorem tokens_eq {n : Nat} (h : rest <:+ input) (hn : rest.length < n) :
    tokens input n (position input rest) = of (Token.scanFrom (position input rest) rest) := by
  generalize hp : position input rest = pos
  fun_induction Token.scanFrom pos rest generalizing n
  all_goals obtain ⟨n, rfl⟩ := Nat.exists_eq_add_one_of_ne_zero (Nat.ne_zero_of_lt hn)
  case case1 pos rest hc =>
    rw [← hp, tokens, span_eq_of_length _ h, ok_bind, hc, position_nil, position,
      Nat.sub_add_cancel h.length_le]
    dsimp only
    unfold token
    rw [if_neg (Nat.lt_irrefl _)]
    rfl
  case case2 pos rest c more hc start fault hnext =>
    have hstart := position_span isBlank h
    rw [hc, hp] at hstart
    rw [← hp, tokens_of_dropWhile n h hc, ← hstart, hnext]
    rfl
  case case3 pos rest c more hc start t after hnext stop ih =>
    have hb : isBlank c = false := head?_dropWhile isBlank rest c (by rw [hc]; rfl)
    have hmore : c :: more <:+ rest := hc ▸ List.dropWhile_suffix _
    have hstart := position_span isBlank h
    rw [hc, hp] at hstart
    have hspell := ((Token.next_eq_ok hb).mp hnext).1
    have hstop : stop = position input after := by
      have := hmore.trans h
      rw [hspell] at hstart this
      rw [← position_append _ this, ← hstart]
    have shorter : after.length < n := by
      have := hmore.length_le
      have := Token.next_length hnext
      rw [List.length_cons] at *
      omega
    have hafter : after <:+ input :=
      (hspell ▸ List.suffix_append _ _ : after <:+ c :: more).trans (hmore.trans h)
    rw [← hp, tokens_of_dropWhile n h hc, ← hstart, hnext, ok_bind]
    dsimp only
    rw [← hstop, ih hafter shorter hstop.symm]
    cases Token.scanFrom stop after <;> rfl

theorem tokens_eq_scan (text : String) :
    tokens text.toList (text.toList.length + 1) 0 = of (Token.scan text) := by
  have := tokens_eq (List.suffix_refl text.toList) (Nat.lt_succ_self _)
  rwa [position_self] at this

end TableStore.Indexed
