import TableStore.Sql.Token
import TableStore.Proofs.Outcome
import TableStore.Proofs.Text.Runs

/-! The tokens of a text and where they stand. Scanning accepts a text exactly if tokens
with blanks around them tile it, and gives these tokens. -/
namespace TableStore.Sql

open TableStore.Text

namespace Token

/-- Where a token can end: a word ends only before a delimiter, and a spelling that
begins a longer one only where the longer one does not stand. -/
def Ends (rest : List Char) : Token → Prop
  | word w => w.toList ≠ [] ∧ (∀ c ∈ w.toList, isDelimiter c = false) ∧
      ∀ c ∈ rest.head?, isDelimiter c = true
  | quoted _ => rest.head? ≠ some quoteMark
  | operator .lt | operator .gt => rest.head? ≠ some '='
  | endOfText => False
  | _ => True

variable {t : Token} {c : Char} {cs rest after : List Char} {start : Nat}

theorem isDelimiter_eq_false : isDelimiter c = false ↔
    isBlank c = false ∧ c ∉ ['(', ')', ',', ';', '=', '<', '>', '!', '\''] := by
  have listed : "(),;=<>!'".toList = ['(', ')', ',', ';', '=', '<', '>', '!', '\''] := by decide
  simp [isDelimiter, listed]

theorem symbol?_cons (c : Char) (rest : List Char) : symbol? (c :: rest) =
    if rest.head? = some '=' ∧ c = '<' then some (operator .le)
    else if rest.head? = some '=' ∧ c = '>' then some (operator .ge)
    else if rest.head? = some '=' ∧ c = '!' then some (operator .ne)
    else if c = '<' then some (operator .lt)
    else if c = '>' then some (operator .gt)
    else if c = '=' then some (operator .eq)
    else if c = '(' then some openParen
    else if c = ')' then some closeParen
    else if c = ',' then some comma
    else if c = ';' then some semicolon
    else none := by
  have find?_step (p : Token → Bool) (t : Token) (ts : List Token) :
      (t :: ts).find? p = if p t = true then some t else ts.find? p := by
    rw [List.find?_cons]
    cases p t <;> rfl
  cases rest with
  | nil =>
    simp only [symbol?, symbols, find?_step, spelling, text, Comparison.symbol]
    simp [@eq_comm Char _ c]
  | cons d rest =>
    simp only [symbol?, symbols, find?_step, spelling, text, Comparison.symbol]
    simp [@eq_comm Char _ c, @eq_comm Char _ d, and_comm]

theorem symbol?_append (ht : t ∈ symbols) (he : t.Ends rest) :
    symbol? (t.spelling ++ rest) = some t := by
  simp only [symbols, List.mem_cons, List.not_mem_nil, or_false] at ht
  rcases ht with rfl | rfl | rfl | rfl | rfl | rfl | rfl | rfl | rfl | rfl
  all_goals
    simp only [Ends] at he
    simp [spelling, text, Comparison.symbol, symbol?_cons, *]

/-- The symbol at the head of a text, and that it ends there. -/
theorem of_symbol?_eq_some (h : symbol? cs = some t) :
    t ∈ symbols ∧ ∃ rest, cs = t.spelling ++ rest ∧ t.Ends rest := by
  have hp := List.find?_some h
  obtain ⟨rest, rfl⟩ := List.isPrefixOf_iff_prefix.mp hp
  refine ⟨List.mem_of_find?_eq_some h, rest, rfl, ?_⟩
  have hm := List.mem_of_find?_eq_some h
  simp only [symbols, List.mem_cons, List.not_mem_nil, or_false] at hm
  rcases hm with rfl | rfl | rfl | rfl | rfl | rfl | rfl | rfl | rfl | rfl
  case inr.inr.inr.inl | inr.inr.inr.inr.inl =>
    intro hr
    simp [spelling, text, Comparison.symbol, symbol?_cons, hr] at h
  all_goals trivial

theorem symbol?_of_isDelimiter_eq_false (h : isDelimiter c = false) (rest : List Char) :
    symbol? (c :: rest) = none := by
  have := (isDelimiter_eq_false.mp h).2
  simp only [List.mem_cons, List.not_mem_nil, not_or] at this
  simp [symbol?_cons, this]

theorem isDelimiter_of_symbol?_eq_none (hb : isBlank c = false) (hs : symbol? (c :: rest) = none)
    (hbang : c ≠ '!') (hq : c ≠ quoteMark) : isDelimiter c = false := by
  rw [isDelimiter_eq_false]
  refine ⟨hb, fun hm => ?_⟩
  rw [symbol?_cons] at hs
  simp only [List.mem_cons, List.not_mem_nil, or_false] at hm
  by_cases hr : rest.head? = some '='
  all_goals
    rcases hm with rfl | rfl | rfl | rfl | rfl | rfl | rfl | rfl | rfl
    case inr.inr.inr.inr.inr.inr.inr.inl => exact hbang rfl
    case inr.inr.inr.inr.inr.inr.inr.inr => exact hq rfl
    all_goals simp [hr] at hs

theorem spelling_of_mem_symbols (ht : t ∈ symbols) : ∃ d ds, t.spelling = d :: ds := by
  simp only [symbols, List.mem_cons, List.not_mem_nil, or_false] at ht
  rcases ht with rfl | rfl | rfl | rfl | rfl | rfl | rfl | rfl | rfl | rfl <;> exact ⟨_, _, rfl⟩

theorem spelling_of_next (hb : isBlank c = false) (h : next start c cs = .ok (t, rest)) :
    c :: cs = t.spelling ++ rest ∧ t.Ends rest := by
  unfold next at h
  split at h
  · next s hs =>
    obtain ⟨hm, r, hr, he⟩ := of_symbol?_eq_some hs
    obtain ⟨d, ds, hd⟩ := spelling_of_mem_symbols hm
    cases h
    rw [hd, List.cons_append, List.cons.injEq] at hr
    rw [hr.2, hd, hr.1]
    simp [he]
  · next hs =>
    split at h
    · cases h
    · next hbang =>
      split at h
      · next hq =>
        split at h
        · next text after hr =>
          cases h
          obtain ⟨rfl, ha⟩ := readQuoted_eq_some.mp hr
          exact ⟨by simp [spelling, quote, hq], ha⟩
        · cases h
      · next hq =>
        cases h
        have hc := isDelimiter_of_symbol?_eq_none hb hs hbang hq
        refine ⟨by simp [spelling, text], by simp, ?_, ?_⟩
        · rw [String.toList_ofList, List.forall_mem_cons]
          refine ⟨hc, fun d hd => ?_⟩
          simpa using List.mem_takeWhile_imp hd
        · intro d hd
          simpa using head?_dropWhile _ cs d hd

theorem next_symbol (ht : t ∈ symbols) (he : t.Ends rest) (h : c :: cs = t.spelling ++ rest) :
    next start c cs = .ok (t, rest) := by
  obtain ⟨d, ds, hd⟩ := spelling_of_mem_symbols ht
  unfold next
  rw [h, symbol?_append ht he]
  rw [hd, List.cons_append, List.cons.injEq] at h
  simp [hd, h.2]

theorem next_word {w : String} (he : (word w).Ends rest) (h : c :: cs = w.toList ++ rest) :
    next start c cs = .ok (word w, rest) := by
  obtain ⟨hne, hw, hend⟩ := he
  obtain ⟨d, ds, hd⟩ := List.exists_cons_of_ne_nil hne
  rw [hd, List.cons_append, List.cons.injEq] at h
  obtain ⟨rfl, rfl⟩ := h
  rw [hd, List.forall_mem_cons] at hw
  have plain := (isDelimiter_eq_false.mp hw.1).2
  simp only [List.mem_cons, List.not_mem_nil, not_or] at plain
  have inside : ∀ e ∈ ds, (!isDelimiter e) = true := fun e he => by simp [hw.2 e he]
  have outside : ∀ e ∈ rest.head?, (!isDelimiter e) = false := fun e he => by simp [hend e he]
  unfold next
  rw [symbol?_of_isDelimiter_eq_false hw.1, takeWhile_append_stop inside outside,
    dropWhile_append_stop inside outside, ← hd, String.ofList_toList]
  simp [plain, quoteMark]

theorem next_quoted {s : String} (he : (quoted s).Ends rest)
    (h : c :: cs = quote s.toList ++ rest) : next start c cs = .ok (quoted s, rest) := by
  simp only [quote, List.cons_append, List.cons.injEq, List.append_assoc, List.nil_append] at h
  obtain ⟨rfl, rfl⟩ := h
  unfold next
  rw [readQuoted_quote _ he]
  simp [symbol?_cons, quoteMark]

/-- A token is read up to where it ends. -/
theorem next_eq_ok (hb : isBlank c = false) : next start c cs = .ok (t, rest) ↔
    c :: cs = t.spelling ++ rest ∧ t.Ends rest := by
  refine ⟨spelling_of_next hb, ?_⟩
  rintro ⟨h, he⟩
  cases t with
  | word w => exact next_word he h
  | quoted s => exact next_quoted he h
  | endOfText => exact he.elim
  | operator op => cases op <;> exact next_symbol (by decide) he h
  | _ => exact next_symbol (by decide) he h

theorem spelling_eq_cons (h : t.Ends rest) : ∃ c cs, t.spelling = c :: cs ∧ isBlank c = false := by
  cases t with
  | word w =>
    obtain ⟨hne, hw, -⟩ := h
    obtain ⟨c, cs, hc⟩ := List.exists_cons_of_ne_nil hne
    exact ⟨c, cs, hc, (isDelimiter_eq_false.mp (hw c (by simp [hc]))).1⟩
  | quoted s => exact ⟨_, _, rfl, by decide⟩
  | endOfText => exact h.elim
  | operator op => cases op <;> exact ⟨_, _, rfl, by decide⟩
  | _ => exact ⟨_, _, rfl, by decide⟩

end Token

/-- The text `cs`, which stands at `pos` and before `rest`, consists of these tokens and of
blanks around them. -/
inductive Tiles (rest : List Char) : Nat → List Char → List Spanned → Prop
  | gap {pos : Nat} {gap : List Char} (blank : ∀ c ∈ gap, isBlank c = true) :
      Tiles rest pos gap []
  | token {pos : Nat} {gap : List Char} {t : Token} {more : List Char} {ts : List Spanned}
      (blank : ∀ c ∈ gap, isBlank c = true) (ends : t.Ends (more ++ rest))
      (tail : Tiles rest (pos + gap.length + t.spelling.length) more ts) :
      Tiles rest pos (gap ++ (t.spelling ++ more))
        (⟨t, pos + gap.length, pos + gap.length + t.spelling.length⟩ :: ts)

theorem Tiles.cons {rest cs gap more : List Char} {pos start stop : Nat} {t : Token}
    {ts : List Spanned} (hcs : cs = gap ++ (t.spelling ++ more))
    (blank : ∀ c ∈ gap, isBlank c = true) (ends : t.Ends (more ++ rest))
    (hstart : start = pos + gap.length) (hstop : stop = start + t.spelling.length)
    (tail : Tiles rest stop more ts) : Tiles rest pos cs (⟨t, start, stop⟩ :: ts) := by
  subst hcs hstart hstop
  exact .token blank ends tail

/-- The last token of a text that ends at a position. -/
def Spanned.last (pos : Nat) : Spanned :=
  ⟨.endOfText, pos, pos⟩

namespace Token

variable {pos : Nat} {cs rest after : List Char} {c : Char} {t : Token} {ts : List Spanned}

theorem scanFrom_of_dropWhile_eq_nil (h : cs.dropWhile isBlank = []) :
    scanFrom pos cs = .ok [.last (pos + cs.length)] := by
  unfold scanFrom
  split
  · rfl
  · next hc =>
    rw [h] at hc
    cases hc

/-- The first token is read, and then what follows it. -/
theorem scanFrom_cons (h : cs.dropWhile isBlank = c :: rest) :
    let start := pos + (cs.takeWhile isBlank).length
    scanFrom pos cs = next start c rest >>= fun (t, after) =>
      (scanFrom (start + t.spelling.length) after).map
        (⟨t, start, start + t.spelling.length⟩ :: ·) := by
  intro start
  conv => lhs; unfold scanFrom
  split
  · next hc =>
    rw [h] at hc
    cases hc
  · next hc =>
    rw [h] at hc
    cases hc
    dsimp only
    split
    · next hn =>
      rw [hn]
      rfl
    · next hn =>
      rw [hn]
      rfl

theorem scanFrom_of_next (h : cs.dropWhile isBlank = c :: rest)
    (hn : next (pos + (cs.takeWhile isBlank).length) c rest = .ok (t, after)) :
    let start := pos + (cs.takeWhile isBlank).length
    scanFrom pos cs = (scanFrom (start + t.spelling.length) after).map
      (⟨t, start, start + t.spelling.length⟩ :: ·) := by
  intro start
  rw [scanFrom_cons h, hn]
  rfl

theorem scanFrom_eq_ok : scanFrom pos cs = .ok ts ↔
    ∃ us, Tiles [] pos cs us ∧ ts = us ++ [.last (pos + cs.length)] := by
  constructor
  · intro h
    fun_induction scanFrom pos cs generalizing ts with
    | case1 pos cs hc =>
      cases h
      exact ⟨[], .gap (List.dropWhile_eq_nil_iff.mp hc), rfl⟩
    | case2 => cases h
    | case3 pos cs c rest hc start t after hn stop =>
      rename_i ih
      obtain ⟨us, hus, rfl⟩ := Outcome.map_eq_ok.mp h
      obtain ⟨vs, htiles, rfl⟩ := ih hus
      have hb : isBlank c = false := head?_dropWhile isBlank cs c (by rw [hc]; rfl)
      obtain ⟨hspell, hends⟩ := (next_eq_ok hb).mp hn
      have hcs : cs = cs.takeWhile isBlank ++ (t.spelling ++ after) := by
        rw [← hspell, ← hc, List.takeWhile_append_dropWhile]
      refine ⟨⟨t, start, stop⟩ :: vs, ?_, ?_⟩
      · refine .cons hcs (fun d hd => List.mem_takeWhile_imp hd) ?_ rfl rfl htiles
        rwa [List.append_nil]
      · have hlen := congrArg List.length hcs
        simp only [List.length_append] at hlen
        have hend : stop + after.length = pos + cs.length := by
          rw [hlen]
          omega
        rw [List.cons_append, hend]
  · rintro ⟨us, h, rfl⟩
    induction h with
    | gap blank => exact scanFrom_of_dropWhile_eq_nil (List.dropWhile_eq_nil_iff.mpr blank)
    | @token pos gap t more ts blank ends tail ih =>
      obtain ⟨c, cs, hc, hb⟩ := spelling_eq_cons ends
      have head : ∀ d ∈ (t.spelling ++ more).head?, isBlank d = false := by
        rw [hc]
        rintro d ⟨⟩
        exact hb
      have hdrop := dropWhile_append_stop blank head
      rw [List.append_nil] at ends
      have hn : ∀ start, next start c (cs ++ more) = .ok (t, more) :=
        fun start => (next_eq_ok hb).mpr ⟨by rw [hc, List.cons_append], ends⟩
      rw [hc, List.cons_append] at hdrop
      rw [hc, List.cons_append, scanFrom_of_next hdrop (hn _), ← List.cons_append, ← hc,
        takeWhile_append_stop blank head, ih]
      simp [Except.map, Nat.add_assoc]

theorem scan_eq_ok {text : String} : scan text = .ok ts ↔
    ∃ us, Tiles [] 0 text.toList us ∧ ts = us ++ [.last text.toList.length] := by
  unfold scan
  rw [scanFrom_eq_ok, Nat.zero_add]

theorem scan_of_tiles (h : Tiles [] 0 cs ts) :
    scan (String.ofList cs) = .ok (ts ++ [.last cs.length]) := by
  rw [scan_eq_ok, String.toList_ofList]
  exact ⟨ts, h, rfl⟩

end Token

namespace Tiles

variable {rest cs : List Char} {pos : Nat} {ts us : List Spanned} {u : Spanned}

theorem ne_endOfText (h : Tiles rest pos cs ts) : ∀ t ∈ ts, t.token ≠ .endOfText := by
  induction h with
  | gap => nofun
  | token blank ends tail ih =>
    rw [List.forall_mem_cons]
    refine ⟨?_, ih⟩
    rintro rfl
    exact ends

/-- The text is cut at a token, and its two parts are tiled by the tokens before and after it. -/
theorem append_cons_iff : Tiles rest pos cs (ts ++ u :: us) ↔ ∃ front back,
    cs = front ++ (u.token.spelling ++ back) ∧ u.start = pos + front.length ∧
    u.stop = u.start + u.token.spelling.length ∧ u.token.Ends (back ++ rest) ∧
    Tiles (u.token.spelling ++ back ++ rest) pos front ts ∧ Tiles rest u.stop back us := by
  constructor
  · intro h
    induction ts generalizing pos cs with
    | nil =>
      cases h with
      | @token _ gap t more _ blank ends tail =>
        exact ⟨gap, more, rfl, rfl, rfl, ends, .gap blank, tail⟩
    | cons t ts ih =>
      cases h with
      | @token _ gap t more _ blank ends tail =>
        obtain ⟨front, back, rfl, hstart, hstop, hends, hfront, hback⟩ := ih tail
        refine ⟨gap ++ (t.spelling ++ front), back, by simp, ?_, hstop, hends, ?_, hback⟩
        · rw [hstart]
          simp only [List.length_append]
          omega
        · refine .token blank ?_ hfront
          simpa using ends
  · rintro ⟨front, back, rfl, hstart, hstop, hends, hfront, hback⟩
    obtain ⟨t, start, stop⟩ := u
    simp only at hstart hstop hends hfront hback
    induction ts generalizing pos front with
    | nil =>
      cases hfront with
      | gap blank => exact .cons rfl blank hends hstart hstop hback
    | cons v ts ih =>
      cases hfront with
      | @token _ gap v more _ blank ends tail =>
        refine .cons (by simp) blank ?_ rfl rfl (ih more ?_ tail)
        · simpa using ends
        · rw [hstart]
          simp only [List.length_append]
          omega

/-- The text between two tokens is tiled by the tokens between them. -/
theorem slice {v : Spanned} {vs : List Spanned} (h : Tiles [] 0 cs (ts ++ u :: (us ++ v :: vs))) :
    ∃ rest, Tiles rest u.stop (Sql.slice cs u.stop v.start) us := by
  obtain ⟨front, back, rfl, hstart, hstop, -, -, hback⟩ := append_cons_iff.mp h
  obtain ⟨inner, after, rfl, hinner, -, -, htiles, -⟩ := append_cons_iff.mp hback
  have hfront : (front ++ u.token.spelling).length = u.stop := by
    rw [List.length_append, hstop, hstart, Nat.zero_add]
  have hslice : Sql.slice (front ++ (u.token.spelling ++ (inner ++ (v.token.spelling ++ after))))
      u.stop v.start = inner := by
    unfold Sql.slice
    rw [← List.append_assoc, List.drop_left' hfront, List.take_left']
    rw [hinner, Nat.add_sub_cancel_left]
  exact ⟨_, hslice.symm ▸ htiles⟩

end Tiles

/-- The same for the tokens of a statement. -/
theorem Token.tiles_slice {text : String} {ts us vs : List Spanned} {u v : Spanned}
    (h : scan text = .ok (ts ++ u :: (us ++ v :: vs))) (hv : v.token ≠ .endOfText) :
    ∃ rest, Tiles rest u.stop (Sql.slice text.toList u.stop v.start) us := by
  obtain ⟨ws, htiles, heq⟩ := scan_eq_ok.mp h
  rcases List.eq_nil_or_concat vs with rfl | ⟨vs, w, rfl⟩
  · obtain ⟨-, hlast⟩ : ts ++ u :: us = ws ∧ [v] = [.last text.toList.length] :=
      List.append_inj' (by simpa using heq) rfl
    exact absurd (List.singleton_inj.mp hlast ▸ rfl) hv
  · obtain ⟨rfl, -⟩ : ts ++ u :: (us ++ v :: vs) = ws ∧ [w] = [.last text.toList.length] :=
      List.append_inj' (by simpa using heq) rfl
    exact htiles.slice

end TableStore.Sql
