import Mathlib.Algebra.Ring.Parity
import TableStore.Proofs.Sql.Composition

/-! Texts that do not consist of tokens. Scanning fails at the first defect that stands outside of
quoted texts: a quote that nothing closes, or an exclamation mark that begins no comparison. -/
namespace TableStore

open TableStore.Text

theorem Text.count_doubleQuotes (cs : List Char) :
    (doubleQuotes cs).count quoteMark = 2 * cs.count quoteMark := by
  induction cs with
  | nil => rfl
  | cons c cs ih =>
    by_cases hc : c = quoteMark
    · simp only [doubleQuotes, hc, if_true, List.count_cons_self, ih]
      omega
    · simp only [doubleQuotes, hc, if_false, List.count_cons_of_ne hc, ih]

/-- Where a quoted text ends can be told from what stands there. -/
theorem Text.quote_append_inj {text text' after after' : List Char}
    (h : after.head? ≠ some quoteMark) (h' : after'.head? ≠ some quoteMark)
    (heq : quote text ++ after = quote text' ++ after') : text = text' ∧ after = after' := by
  have hread := readQuoted_quote text h
  have same : doubleQuotes text ++ quoteMark :: after =
      doubleQuotes text' ++ quoteMark :: after' := by
    simpa [quote] using heq
  rw [same, readQuoted_quote text' h'] at hread
  cases hread
  exact ⟨rfl, rfl⟩

namespace Sql

/-- In a text `rest` stands outside of the quoted texts: from the left, what is before it is passed
over character by character, and a quoted text as a whole. -/
inductive Outside (rest : List Char) : List Char → Prop
  | here : Outside rest rest
  | char {c : Char} {cs : List Char} (other : c ≠ quoteMark) (tail : Outside rest cs) :
      Outside rest (c :: cs)
  | quoted (text : List Char) {after : List Char} (closed : after.head? ≠ some quoteMark)
      (tail : Outside rest after) : Outside rest (quote text ++ after)

/-- What is wrong with the first character of a text, which stands at `pos`. -/
inductive Defect (pos : Nat) : List Char → Fault → Prop
  | unclosed {rest : List Char} (never : ∀ text after, rest = doubleQuotes text ++ quoteMark ::
      after → after.head? = some quoteMark) :
      Defect pos (quoteMark :: rest) (.unterminatedText pos)
  | bang {rest : List Char} (alone : rest.head? ≠ some '=') :
      Defect pos ('!' :: rest) (.unexpectedCharacter '!' pos)

/-- A defect outside of quoted texts. -/
def DefectAt (cs : List Char) (pos : Nat) (fault : Fault) : Prop :=
  Outside (cs.drop pos) cs ∧ Defect pos (cs.drop pos) fault

/-- A defect with no other before it. -/
def FirstDefect (cs : List Char) (pos : Nat) (fault : Fault) : Prop :=
  DefectAt cs pos fault ∧ ∀ pos' fault', DefectAt cs pos' fault' → pos ≤ pos'

variable {cs front back rest after text : List Char} {c : Char} {pos : Nat} {fault : Fault}
  {t : Token} {us : List Spanned}

theorem readQuoted_eq_none_iff_unclosed : readQuoted rest = none ↔
    ∀ text after, rest = doubleQuotes text ++ quoteMark :: after →
      after.head? = some quoteMark := by
  simp only [Option.eq_none_iff_forall_ne_some, Prod.forall, ne_eq, readQuoted_eq_some, not_and,
    Decidable.not_not]

namespace Outside

theorem length_le (h : Outside rest cs) : rest.length ≤ cs.length := by
  induction h with
  | here => exact Nat.le_refl _
  | char other tail ih => exact Nat.le_succ_of_le ih
  | quoted text closed tail ih =>
    rw [List.length_append]
    exact Nat.le_add_left_of_le ih

theorem trans (h : Outside back front) (h' : Outside rest back) : Outside rest front := by
  induction h with
  | here => exact h'
  | char other tail ih => exact .char other ih
  | quoted text closed tail ih => exact .quoted text closed ih

theorem append_of_notMem (hfront : quoteMark ∉ front) (h : Outside rest back) :
    Outside rest (front ++ back) := by
  induction front with
  | nil => exact h
  | cons c front ih =>
    rw [List.mem_cons, not_or] at hfront
    exact .char (Ne.symm hfront.1) (ih hfront.2)

theorem cons_iff (other : c ≠ quoteMark) :
    Outside rest (c :: cs) ↔ rest = c :: cs ∨ Outside rest cs := by
  constructor
  · intro h
    generalize hl : c :: cs = l at h
    cases h with
    | here => exact .inl rfl
    | char _ tail =>
      obtain ⟨-, rfl⟩ := List.cons.inj hl
      exact .inr tail
    | quoted text closed tail => exact absurd (List.cons.inj hl).1 other
  · rintro (rfl | h)
    · exact .here
    · exact .char other h

/-- A quoted text is passed over as a whole. -/
theorem quote_append_iff (closed : after.head? ≠ some quoteMark) :
    Outside rest (quote text ++ after) ↔ rest = quote text ++ after ∨ Outside rest after := by
  constructor
  · intro h
    generalize hl : quote text ++ after = l at h
    cases h with
    | here => exact .inl rfl
    | char other tail => exact absurd (List.cons.inj hl).1.symm other
    | quoted text' closed' tail => exact .inr ((quote_append_inj closed closed' hl).2 ▸ tail)
  · rintro (rfl | h)
    · exact .here
    · exact .quoted text closed h

end Outside

namespace Defect

theorem head_eq (h : Defect pos (c :: cs) fault) : c = quoteMark ∨ c = '!' := by
  cases h with
  | unclosed never => exact .inl rfl
  | bang alone => exact .inr rfl

theorem unique {fault' : Fault} (h : Defect pos cs fault) (h' : Defect pos cs fault') :
    fault = fault' := by
  cases h <;> cases h' <;> rfl

theorem odd_count (h : Defect pos cs (.unterminatedText pos)) : Odd (cs.count quoteMark) := by
  cases h with
  | unclosed never =>
    obtain ⟨text, rfl⟩ := readQuoted_eq_none.mp (readQuoted_eq_none_iff_unclosed.mpr never)
    exact ⟨text.count quoteMark, by rw [List.count_cons_self, count_doubleQuotes]⟩

theorem of_unclosed {pos' : Nat} (h : Defect pos (cs.drop pos) (.unterminatedText pos')) :
    pos = pos' ∧ cs[pos]? = some quoteMark := by
  have hhead : cs[pos]? = (cs.drop pos).head? := by rw [List.head?_drop]
  generalize cs.drop pos = l at h hhead
  cases h with
  | unclosed never => exact ⟨rfl, hhead⟩

theorem of_bang {pos' : Nat} (h : Defect pos (cs.drop pos) (.unexpectedCharacter c pos')) :
    pos = pos' ∧ c = '!' ∧ cs[pos]? = some '!' ∧ cs[pos + 1]? ≠ some '=' := by
  have hhead : cs[pos]? = (cs.drop pos).head? := by rw [List.head?_drop]
  have hnext : cs[pos + 1]? = (cs.drop pos).tail.head? := by rw [List.tail_drop, List.head?_drop]
  generalize cs.drop pos = l at h hhead hnext
  cases h with
  | bang alone => exact ⟨rfl, rfl, hhead, hnext ▸ alone⟩

/-- What stands before a defect is passed over, where it has no character that begins one. -/
theorem outside_of_append (h : Defect pos rest fault) (hquote : quoteMark ∉ front)
    (hbang : '!' ∉ front) (ho : Outside rest (front ++ back)) : Outside rest back := by
  induction front with
  | nil => exact ho
  | cons c front ih =>
    rw [List.mem_cons, not_or] at hquote hbang
    rcases (Outside.cons_iff (Ne.symm hquote.1)).mp ho with rfl | ho
    · rcases h.head_eq with rfl | rfl
      · exact absurd rfl hquote.1
      · exact absurd rfl hbang.1
    · exact ih hquote.2 hbang.2 ho

end Defect

theorem DefectAt.lt_length (h : DefectAt cs pos fault) : pos < cs.length := by
  by_contra hle
  obtain ⟨-, hd⟩ := h
  rw [List.drop_eq_nil_of_le (Nat.le_of_not_lt hle)] at hd
  cases hd

namespace Token

theorem quoted_or_other (t : Token) : (∃ s, t = quoted s) ∨ ∀ s, t ≠ quoted s := by
  cases t with
  | quoted s => exact .inl ⟨s, rfl⟩
  | _ => exact .inr nofun

/-- Outside of quotes only the spellings of symbols have delimiters in them. -/
theorem mem_symbols_of_mem_spelling (h : t.Ends rest) (ht : ∀ s, t ≠ quoted s)
    (hc : c ∈ t.spelling) (hd : isDelimiter c = true) : t ∈ symbols := by
  cases t with
  | word w => exact absurd (hd.symm.trans (h.2.1 c hc)) nofun
  | quoted s => exact absurd rfl (ht s)
  | operator op => cases op <;> decide
  | endOfText => exact h.elim
  | _ => decide

theorem quoteMark_notMem_spelling (h : t.Ends rest) (ht : ∀ s, t ≠ quoted s) :
    quoteMark ∉ t.spelling := by
  intro hm
  have unquoted : ∀ s ∈ symbols, quoteMark ∉ s.spelling := by decide
  exact unquoted t (mem_symbols_of_mem_spelling h ht hm (by decide)) hm

theorem eq_ne_of_bang_mem_spelling (h : t.Ends rest) (ht : ∀ s, t ≠ quoted s)
    (hm : '!' ∈ t.spelling) : t = operator .ne := by
  have only : ∀ s ∈ symbols, '!' ∈ s.spelling → s = operator .ne := by decide
  exact only t (mem_symbols_of_mem_spelling h ht hm (by decide)) hm

theorem even_count_spelling (h : t.Ends rest) : Even (t.spelling.count quoteMark) := by
  rcases t.quoted_or_other with ⟨s, rfl⟩ | ht
  · refine ⟨s.toList.count quoteMark + 1, ?_⟩
    simp only [spelling, quote, List.count_append, List.count_cons_self, count_doubleQuotes,
      List.count_nil]
    omega
  · rw [List.count_eq_zero.mpr (quoteMark_notMem_spelling h ht)]
    exact Even.zero

theorem outside_spelling_append (h : t.Ends back) : Outside back (t.spelling ++ back) := by
  rcases t.quoted_or_other with ⟨s, rfl⟩ | ht
  · exact .quoted s.toList h .here
  · exact .append_of_notMem (quoteMark_notMem_spelling h ht) .here

end Token

/-- No defect begins in a token. -/
theorem Defect.outside_of_spelling (h : Defect pos rest fault) (ends : t.Ends back)
    (ho : Outside rest (t.spelling ++ back)) : Outside rest back := by
  rcases t.quoted_or_other with ⟨s, rfl⟩ | ht
  · rcases (Outside.quote_append_iff ends).mp ho with rfl | ho
    · cases h with
      | unclosed never => exact absurd (never s.toList back (by simp)) ends
    · exact ho
  · have hquote := Token.quoteMark_notMem_spelling ends ht
    by_cases hbang : '!' ∈ t.spelling
    · obtain rfl := Token.eq_ne_of_bang_mem_spelling ends ht hbang
      -- The exclamation mark of the operator is followed by the rest of it.
      have plain : '!' ≠ quoteMark := by decide
      rcases (Outside.cons_iff plain).mp ho with rfl | ho
      · cases h with
        | bang alone => exact absurd rfl alone
      · have equals : Outside rest (['='] ++ back) := ho
        exact h.outside_of_append (by decide) (by decide) equals
    · exact h.outside_of_append hquote hbang ho

theorem notMem_of_blank {gap : List Char} (hc : isBlank c = false)
    (blank : ∀ d ∈ gap, isBlank d = true) : c ∉ gap :=
  fun hm => Bool.false_ne_true (hc.symm.trans (blank c hm))

namespace Tiles

theorem even_count (h : Tiles rest pos cs us) : Even (cs.count quoteMark) := by
  induction h with
  | gap blank =>
    rw [List.count_eq_zero.mpr (notMem_of_blank (by decide) blank)]
    exact Even.zero
  | token blank ends tail ih =>
    rw [List.count_append, List.count_append,
      List.count_eq_zero.mpr (notMem_of_blank (by decide) blank), Nat.zero_add]
    exact (Token.even_count_spelling ends).add ih

/-- The tokens of a text are passed over. -/
theorem outside (h : Tiles back pos front us) : Outside back (front ++ back) := by
  induction h with
  | gap blank => exact .append_of_notMem (notMem_of_blank (by decide) blank) .here
  | @token pos gap t more ts blank ends tail ih =>
    rw [List.append_assoc, List.append_assoc]
    refine .append_of_notMem (notMem_of_blank (by decide) blank) ?_
    exact (Token.outside_spelling_append ends).trans ih

/-- A defect of a text stands behind its tokens. -/
theorem outside_of_defect {pos' : Nat} (h : Tiles back pos front us)
    (hd : Defect pos' rest fault) (ho : Outside rest (front ++ back)) : Outside rest back := by
  have behind {gap more : List Char} (blank : ∀ c ∈ gap, isBlank c = true)
      (ho : Outside rest (gap ++ more)) : Outside rest more :=
    hd.outside_of_append (notMem_of_blank (by decide) blank) (notMem_of_blank (by decide) blank) ho
  induction h with
  | gap blank => exact behind blank ho
  | token blank ends tail ih =>
    rw [List.append_assoc, List.append_assoc] at ho
    exact ih (hd.outside_of_spelling ends (behind blank ho))

theorem length_le_of_defectAt (h : Tiles back 0 front us) {pos : Nat}
    (hd : DefectAt (front ++ back) pos fault) : front.length ≤ pos := by
  have hlt := hd.lt_length
  have hle := (h.outside_of_defect hd.2 hd.1).length_le
  rw [List.length_drop, List.length_append] at hle
  rw [List.length_append] at hlt
  omega

end Tiles

namespace Token

theorem next_eq_error {start : Nat} :
    next start c cs = .error fault ↔ Defect start (c :: cs) fault := by
  constructor
  · intro h
    unfold next at h
    split at h
    · cases h
    · next hs =>
      split at h
      · next hbang =>
        cases h
        subst hbang
        refine .bang fun hr => ?_
        simp [symbol?_cons, hr] at hs
      · split at h
        · next hq =>
          subst hq
          split at h
          · cases h
          · next hr =>
            cases h
            exact .unclosed (readQuoted_eq_none_iff_unclosed.mp hr)
        · cases h
  · intro h
    unfold next
    cases h with
    | unclosed never =>
      rw [readQuoted_eq_none_iff_unclosed.mpr never]
      simp [symbol?_cons, quoteMark]
    | bang alone => simp [symbol?_cons, alone]

theorem scanFrom_of_defect (h : Defect pos cs fault) : scanFrom pos cs = .error fault := by
  cases cs with
  | nil => cases h
  | cons c cs =>
    have hb : isBlank c = false := by
      rcases h.head_eq with rfl | rfl <;> decide
    have drops : (c :: cs).dropWhile isBlank = c :: cs := List.dropWhile_cons_of_neg (by simp [hb])
    have takes : (c :: cs).takeWhile isBlank = [] := List.takeWhile_cons_of_neg (by simp [hb])
    rw [scanFrom_cons drops, takes, List.length_nil, Nat.add_zero, next_eq_error.mpr h]
    rfl

/-- Scanning fails behind some tokens, at a defect. -/
theorem scanFrom_eq_error : scanFrom pos cs = .error fault ↔ ∃ front back us,
    cs = front ++ back ∧ Tiles back pos front us ∧ Defect (pos + front.length) back fault := by
  constructor
  · intro h
    fun_induction scanFrom pos cs with
    | case1 => cases h
    | case2 pos cs c rest hc start fault' hn =>
      cases h
      refine ⟨cs.takeWhile isBlank, c :: rest, [], ?_, .gap fun d => List.mem_takeWhile_imp,
        next_eq_error.mp hn⟩
      rw [← hc, List.takeWhile_append_dropWhile]
    | case3 pos cs c rest hc start t after hn stop ih =>
      obtain ⟨front, back, us, rfl, tiles, hd⟩ := ih (Outcome.map_eq_error.mp h)
      have hb : isBlank c = false := head?_dropWhile isBlank cs c (by rw [hc]; rfl)
      obtain ⟨hspell, hends⟩ := (next_eq_ok hb).mp hn
      refine ⟨cs.takeWhile isBlank ++ (t.spelling ++ front), back, _, ?_,
        .token (fun d => List.mem_takeWhile_imp) hends tiles, ?_⟩
      · rw [List.append_assoc, List.append_assoc, ← hspell, ← hc, List.takeWhile_append_dropWhile]
      · rw [List.length_append, List.length_append, ← Nat.add_assoc, ← Nat.add_assoc]
        exact hd
  · rintro ⟨front, back, us, rfl, tiles, hd⟩
    rw [scanFrom_append tiles, scanFrom_of_defect hd]
    rfl

variable {text : String} {ts : List Spanned}

theorem not_defectAt_of_scan (h : scan text = .ok ts) : ¬DefectAt text.toList pos fault := by
  intro hd
  obtain ⟨us, tiles, -⟩ := scan_eq_ok.mp h
  have hle := tiles.length_le_of_defectAt (by rwa [List.append_nil])
  exact absurd hd.lt_length (Nat.not_lt.mpr hle)

/-- A text for which scanning fails begins with tokens, and its first defect stands behind them. -/
theorem firstDefect_of_scan (h : scan text = .error fault) : ∃ pos us,
    Tiles [] 0 (text.toList.take pos) us ∧ FirstDefect text.toList pos fault := by
  obtain ⟨front, back, us, htext, tiles, hd⟩ := scanFrom_eq_error.mp h
  rw [Nat.zero_add] at hd
  rw [htext]
  refine ⟨front.length, us, ?_, ⟨?_, ?_⟩, fun pos' fault' => tiles.length_le_of_defectAt⟩
  · rw [List.take_left]
    exact tiles.before_blank nofun
  · rw [List.drop_left]
    exact tiles.outside
  · rwa [List.drop_left]

theorem scan_eq_error_iff : scan text = .error fault ↔ ∃ pos, FirstDefect text.toList pos fault := by
  constructor
  · intro h
    obtain ⟨pos, us, -, first⟩ := firstDefect_of_scan h
    exact ⟨pos, first⟩
  · rintro ⟨pos, ⟨here, first⟩⟩
    cases hscan : scan text with
    | ok ts => exact absurd here (not_defectAt_of_scan hscan)
    | error fault' =>
      obtain ⟨pos', us, -, here', first'⟩ := firstDefect_of_scan hscan
      obtain rfl := Nat.le_antisymm (first _ _ here') (first' _ _ here)
      rw [here'.2.unique here.2]

/-- Scanning fails exactly for a text with a defect, and then at the first one, before which
everything consists of tokens. From a quote that nothing closes on, the text holds an odd number
of quotes; a text that consists of tokens holds an even number. -/
theorem scan_firstDefect (text : String) :
    ((∃ fault, scan text = .error fault) ↔ ∃ pos fault, DefectAt text.toList pos fault) ∧
    (∀ fault, scan text = .error fault ↔ ∃ pos, FirstDefect text.toList pos fault) ∧
    (∀ pos, scan text = .error (.unterminatedText pos) →
      text.toList[pos]? = some quoteMark ∧
      (∃ ts, scan (String.ofList (text.toList.take pos)) = .ok ts) ∧
      Odd ((text.toList.drop pos).count quoteMark)) ∧
    (∀ c pos, scan text = .error (.unexpectedCharacter c pos) →
      c = '!' ∧ text.toList[pos]? = some '!' ∧ text.toList[pos + 1]? ≠ some '=' ∧
      ∃ ts, scan (String.ofList (text.toList.take pos)) = .ok ts) ∧
    ∀ ts, scan text = .ok ts → Even (text.toList.count quoteMark) := by
  refine ⟨⟨fun ⟨fault, h⟩ => ?_, fun ⟨pos, fault, hd⟩ => ?_⟩, fun _ => scan_eq_error_iff,
    fun pos h => ?_, fun c pos h => ?_, fun ts h => ?_⟩
  · obtain ⟨pos, -, -, first⟩ := firstDefect_of_scan h
    exact ⟨pos, fault, first.1⟩
  · cases hscan : scan text with
    | ok ts => exact absurd hd (not_defectAt_of_scan hscan)
    | error fault' => exact ⟨fault', rfl⟩
  · obtain ⟨pos', us, tiles, ⟨-, hd⟩, -⟩ := firstDefect_of_scan h
    obtain ⟨rfl, hquote⟩ := hd.of_unclosed
    exact ⟨hquote, ⟨_, scan_of_tiles tiles⟩, hd.odd_count⟩
  · obtain ⟨pos', us, tiles, ⟨-, hd⟩, -⟩ := firstDefect_of_scan h
    obtain ⟨rfl, rfl, hbang, halone⟩ := hd.of_bang
    exact ⟨rfl, hbang, halone, _, scan_of_tiles tiles⟩
  · obtain ⟨us, tiles, -⟩ := scan_eq_ok.mp h
    exact tiles.even_count

/-- An exclamation mark behind a comparison and a quoted text with another one, and before a quote
that is open; and a quote that two others do not close. -/
theorem scan_firstDefect_quotes :
    let marked := "a!='! ''x' !b 'c"
    let opened := "b 'c''! d"
    scan marked = .error (.unexpectedCharacter '!' 11) ∧
      (∃ ts, scan (String.ofList (marked.toList.take 11)) = .ok ts) ∧
      scan opened = .error (.unterminatedText 2) ∧
      (∃ ts, scan (String.ofList (opened.toList.take 2)) = .ok ts) ∧
      (∃ pos fault, DefectAt opened.toList pos fault) := by
  intro marked opened
  have hbang : scan marked = .error (.unexpectedCharacter '!' 11) := by decide +kernel
  have hquote : scan opened = .error (.unterminatedText 2) := by decide +kernel
  obtain ⟨-, -, -, before⟩ := (scan_firstDefect marked).2.2.2.1 _ _ hbang
  obtain ⟨-, before', -⟩ := (scan_firstDefect opened).2.2.1 _ hquote
  exact ⟨hbang, before, hquote, before', (scan_firstDefect opened).1.mp ⟨_, hquote⟩⟩

end Token

end Sql

end TableStore
