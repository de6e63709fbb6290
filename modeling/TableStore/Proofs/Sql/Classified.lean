import TableStore.Proofs.Sql.Composition
import TableStore.Proofs.Sql.Refusals

/-! Which fault a refused text has. The scanner's fault comes before everything else, then what
stands in the place of the verb; behind a verb there are faults of syntax, and bad names in the
place of the table's name. -/
namespace TableStore.Sql

open TableStore.Text TableStore.Outcome

/-- The first token is a word that spells a verb. -/
def BeginsWithVerb (ts : List Spanned) : Prop :=
  ∃ (v : Verb) (w : String), v.Spells w ∧ Grammar.current ts = .word w

/-- The word in the place of a table's name, in tokens that are those of a statement before it. -/
def NamesTable (ts : List Spanned) (name : String) : Prop :=
  ∃ (v : Verb) (w : String) (before rest : List Token), v.Spells w ∧
    Grammar.BeforeTable v before ∧
    ts.map Spanned.token = .word w :: (before ++ .word name :: rest)

/-- The characters before the first delimiter, without blanks before them. -/
def firstWord (text : String) : String :=
  String.ofList ((text.toList.dropWhile isBlank).takeWhile fun c => !Token.isDelimiter c)

variable {text name : String} {ts : List Spanned} {v : Verb} {fault : Fault} {cs : List Char}

namespace Grammar

theorem tableName_eq_badTableName : tableName ts = .error (.badTableName name) ↔
    ¬IsName name ∧ ∃ rest, Takes ts [.word name] rest := by
  constructor
  · intro h
    rcases tableName_fault ts _ h with hs | ⟨name', heq, hname⟩
    · cases hs
    · cases heq
      exact hname
  · rintro ⟨hname, rest, h⟩
    unfold tableName
    rw [word_eq_ok.mpr h, ok_bind]
    exact if_neg (mt isTableName_iff.mp hname)

/-- The name of a table is looked at before what follows it. -/
theorem body_of_misnames (h : Misnames v ts name) :
    body cs ts v = .error (.badTableName name) := by
  obtain ⟨hname, before, rest, hbefore, h⟩ := h
  obtain ⟨mid, hmid, hrest⟩ := takes_append.mp h
  have refused : tableName mid = .error (.badTableName name) :=
    tableName_eq_badTableName.mpr ⟨hname, rest, hrest⟩
  cases hbefore with
  | create =>
    unfold body create
    rw [keyword_eq_ok.mpr hmid, ok_bind, refused, error_bind]
  | insert =>
    unfold body insert
    rw [keyword_eq_ok.mpr hmid, ok_bind, refused, error_bind]
  | select listed =>
    obtain ⟨after, hcolumns, hfrom⟩ := takes_append.mp hmid
    have hcomma : current after ≠ .comma := by
      obtain ⟨u, rfl, hu⟩ := takes_singleton.mp hfrom
      rw [current, hu]
      simp
    unfold body select
    rw [words_eq_ok.mpr ⟨_, listed, hcolumns, hcomma⟩, ok_bind]
    simp only
    rw [keyword_eq_ok.mpr hfrom, ok_bind, refused, error_bind]
  | update =>
    obtain rfl := takes_nil.mp hmid
    unfold body update
    rw [refused, error_bind]
  | delete =>
    unfold body delete
    rw [keyword_eq_ok.mpr hmid, ok_bind, refused, error_bind]

theorem verb_of_not_beginsWithVerb (h : ¬BeginsWithVerb ts) :
    verb (current ts) = .error (.unsupported (refusedText (current ts))) := by
  cases hverb : verb (current ts) with
  | error fault => rw [verb_eq_error hverb]
  | ok v =>
    obtain ⟨w, hw, spells⟩ := verb_eq_ok.mp hverb
    exact absurd ⟨v, w, spells, hw⟩ h

theorem namesTable_iff : (∃ v w, v.Spells w ∧ current ts = .word w ∧ Misnames v ts.tail name) ↔
    NamesTable ts name ∧ ¬IsName name := by
  constructor
  · rintro ⟨v, w, spells, hw, hname, before, rest, hbefore, front, hfront, htokens⟩
    cases ts with
    | nil => cases hw
    | cons u us =>
      refine ⟨⟨v, w, before, rest.map Spanned.token, spells, hbefore, ?_⟩, hname⟩
      rw [List.tail_cons] at hfront
      rw [List.map_cons, show u.token = .word w from hw, hfront, List.map_append, htokens]
      simp
  · rintro ⟨⟨v, w, before, rest, spells, hbefore, htokens⟩, hname⟩
    obtain ⟨u, us, rfl, hu, hus⟩ := List.map_eq_cons_iff.mp htokens
    rw [List.append_cons] at hus
    obtain ⟨front, back, rfl, hfront, -⟩ := List.map_eq_append_iff.mp hus
    exact ⟨v, w, spells, hu, hname, before, back, hbefore, front, rfl, hfront⟩

end Grammar

open Grammar

theorem not_isName_iff (h : name.toList ≠ []) :
    ¬IsName name ↔ ∃ c ∈ name.toList, c.isAlphanum = false ∧ c ≠ '_' := by
  simp [IsName, h]

/-- A text whose first word spells a verb begins with this word, if it has tokens at all. -/
theorem beginsWithVerb_of_firstWord (hscan : Token.scan text = .ok ts)
    (h : v.Spells (firstWord text)) : BeginsWithVerb ts := by
  let plain := fun c => !Token.isDelimiter c
  let gap := text.toList.takeWhile isBlank
  let rest := (text.toList.dropWhile isBlank).dropWhile plain
  have htext : text.toList = gap ++ ((Token.word (firstWord text)).spelling ++ rest) := by
    simp [gap, rest, plain, firstWord, Token.spelling, Token.text]
  have blank : ∀ c ∈ gap, isBlank c = true := fun c => List.mem_takeWhile_imp
  have ends : (Token.word (firstWord text)).Ends rest := by
    refine ⟨fun hempty => ?_, fun c hc => ?_, fun c hc => ?_⟩
    · rw [Verb.Spells, hempty] at h
      cases v <;> cases h
    · rw [firstWord, String.toList_ofList] at hc
      simpa using List.mem_takeWhile_imp hc
    · simpa [plain] using head?_dropWhile plain _ c hc
  unfold Token.scan at hscan
  rw [htext, Token.scanFrom_gap_append blank, Token.scanFrom_token_append ends] at hscan
  obtain ⟨us, -, rfl⟩ := map_eq_ok.mp hscan
  exact ⟨v, _, h, rfl⟩

namespace Statement

theorem read_of_scan_eq_error (h : Token.scan text = .error fault) :
    read text = .error fault := by
  unfold read
  rw [h, error_bind]

theorem read_of_not_beginsWithVerb (hscan : Token.scan text = .ok ts) (h : ¬BeginsWithVerb ts) :
    read text = .error (.unsupported (refusedText (current ts))) := by
  unfold read
  rw [hscan, ok_bind, verb_of_not_beginsWithVerb h, error_bind]

theorem read_of_spells {w : String} (hscan : Token.scan text = .ok ts) (hw : current ts = .word w)
    (h : v.Spells w) : read text = body text.toList ts.tail v >>= fun r =>
      finish r.2 >>= fun _ => pure r.1 := by
  unfold read
  rw [hscan, ok_bind, verb_eq_ok.mpr ⟨w, hw, h⟩, ok_bind]

/-- Behind a verb, a text is refused for its syntax or for the word in the place of a name. -/
theorem read_fault_of_beginsWithVerb (hscan : Token.scan text = .ok ts) (h : BeginsWithVerb ts) :
    NameFault (fun name => NamesTable ts name ∧ ¬IsName name) (read text) := by
  obtain ⟨v, w, spells, hw⟩ := h
  rw [read_of_spells hscan hw spells]
  refine .bind ((body_fault _ _ v).imp ?_) fun r =>
    nameFault_of_syntaxFault (.bind (finish_fault r.2) fun _ => .ok _)
  rintro fault (hs | ⟨name, rfl, misnames⟩)
  · exact .inl hs
  · exact .inr ⟨name, rfl, namesTable_iff.mp ⟨v, w, spells, hw, misnames⟩⟩

theorem read_eq_badTableName : read text = .error (.badTableName name) ↔
    ∃ ts, Token.scan text = .ok ts ∧ NamesTable ts name ∧ ¬IsName name := by
  constructor
  · intro h
    cases hscan : Token.scan text with
    | error fault =>
      rw [read_of_scan_eq_error hscan] at h
      cases h
      cases Token.scan_fault text _ hscan
    | ok ts =>
      by_cases hverb : BeginsWithVerb ts
      · rcases read_fault_of_beginsWithVerb hscan hverb _ h with hs | ⟨name', heq, named⟩
        · cases hs
        · cases heq
          exact ⟨ts, rfl, named⟩
      · rw [read_of_not_beginsWithVerb hscan hverb] at h
        cases h
  · rintro ⟨ts, hscan, named⟩
    obtain ⟨v, w, spells, hw, misnames⟩ := namesTable_iff.mpr named
    rw [read_of_spells hscan hw spells, body_of_misnames misnames, error_bind]

/-- A word in the place of a table's name has characters, so that it is no name for one of
them. -/
theorem not_isName_of_scan (hscan : Token.scan text = .ok ts) (h : NamesTable ts name) :
    ¬IsName name ↔ ∃ c ∈ name.toList, c.isAlphanum = false ∧ c ≠ '_' := by
  obtain ⟨v, w, before, rest, -, -, htokens⟩ := h
  have hmem : .word name ∈ ts.map Spanned.token := by simp [htokens]
  obtain ⟨u, hu, hword⟩ := List.mem_map.mp hmem
  exact not_isName_iff (Token.isWord_of_scan hscan hu hword).1

/-- A text that cannot be cut into tokens is refused for the scanner's fault, which is one of
syntax; a text whose first token spells no verb is refused for this token; and behind a verb a
refusal is one of syntax, or it is for a word that stands in the place of the table's name and
holds a character that names do not have. No text whose first word spells a verb is refused for
its operation, and there are no other faults. -/
theorem refusals_classified (text : String) :
    (∀ fault, Token.scan text = .error fault →
      read text = .error fault ∧ fault.isSyntax = true) ∧
    (∀ ts, Token.scan text = .ok ts → ¬BeginsWithVerb ts →
      read text = .error (.unsupported (refusedText (current ts)))) ∧
    (∀ ts fault, Token.scan text = .ok ts → BeginsWithVerb ts → read text = .error fault →
      fault.isSyntax = true ∨ ∃ name, fault = .badTableName name ∧ NamesTable ts name ∧
        ∃ c ∈ name.toList, c.isAlphanum = false ∧ c ≠ '_') ∧
    (∀ name, read text = .error (.badTableName name) ↔
      ∃ ts, Token.scan text = .ok ts ∧ NamesTable ts name ∧
        ∃ c ∈ name.toList, c.isAlphanum = false ∧ c ≠ '_') ∧
    (∀ v : Verb, v.Spells (firstWord text) →
      ∀ operation, read text ≠ .error (.unsupported operation)) ∧
    ∀ fault, read text = .error fault → fault.isSyntax = true ∨
      (∃ operation, fault = .unsupported operation) ∨ ∃ name, fault = .badTableName name := by
  have lexical {fault : Fault} (hscan : Token.scan text = .error fault) :
      read text = .error fault ∧ fault.isSyntax = true :=
    ⟨read_of_scan_eq_error hscan, Token.scan_fault text fault hscan⟩
  have behind {ts : List Spanned} {fault : Fault} (hscan : Token.scan text = .ok ts)
      (hverb : BeginsWithVerb ts) (h : read text = .error fault) :
      fault.isSyntax = true ∨ ∃ name, fault = .badTableName name ∧ NamesTable ts name ∧
        ∃ c ∈ name.toList, c.isAlphanum = false ∧ c ≠ '_' := by
    refine (read_fault_of_beginsWithVerb hscan hverb fault h).imp_right ?_
    rintro ⟨name, rfl, named, hname⟩
    exact ⟨name, rfl, named, (not_isName_of_scan hscan named).mp hname⟩
  refine ⟨fun _ => lexical, fun _ => read_of_not_beginsWithVerb, fun _ _ => behind,
    fun name => ?_, fun v spells operation h => ?_, fun fault h => ?_⟩
  · rw [read_eq_badTableName]
    refine exists_congr fun ts => and_congr_right fun hscan => and_congr_right fun named => ?_
    exact not_isName_of_scan hscan named
  · cases hscan : Token.scan text with
    | error fault =>
      obtain ⟨hread, syn⟩ := lexical hscan
      rw [hread] at h
      cases h
      cases syn
    | ok ts =>
      rcases behind hscan (beginsWithVerb_of_firstWord hscan spells) h with syn | ⟨name, heq, -⟩
      · cases syn
      · cases heq
  · cases hscan : Token.scan text with
    | error fault' =>
      obtain ⟨hread, syn⟩ := lexical hscan
      rw [hread] at h
      cases h
      exact .inl syn
    | ok ts =>
      by_cases hverb : BeginsWithVerb ts
      · exact (behind hscan hverb h).imp_right fun ⟨name, heq, _⟩ => .inr ⟨name, heq⟩
      · rw [read_of_not_beginsWithVerb hscan hverb] at h
        cases h
        exact .inr (.inl ⟨_, rfl⟩)

/-- A column named like a keyword and a bad name behind the keyword; an unclosed quote behind a
verb; and a word that is no verb before one. -/
theorem refusals_classified_misnamed :
    read "Select FROM FROM t-1 WHERE" = .error (.badTableName "t-1") ∧
      read " insert 'a" = .error (.unterminatedText 8) ∧
      (∀ operation, read " insert 'a" ≠ .error (.unsupported operation)) ∧
      read "DROP CREATE" = .error (.unsupported "DROP") := by
  have misnamed : Token.scan "Select FROM FROM t-1 WHERE" = .ok
      [⟨.word "Select", 0, 6⟩, ⟨.word "FROM", 7, 11⟩, ⟨.word "FROM", 12, 16⟩,
        ⟨.word "t-1", 17, 20⟩, ⟨.word "WHERE", 21, 26⟩, ⟨.endOfText, 26, 26⟩] := by
    decide +kernel
  have unclosed : Token.scan " insert 'a" = .error (.unterminatedText 8) := by decide +kernel
  have dropped : Token.scan "DROP CREATE" = .ok
      [⟨.word "DROP", 0, 4⟩, ⟨.word "CREATE", 5, 11⟩, ⟨.endOfText, 11, 11⟩] := by decide +kernel
  have noVerb : ¬BeginsWithVerb
      [⟨.word "DROP", 0, 4⟩, ⟨.word "CREATE", 5, 11⟩, ⟨.endOfText, 11, 11⟩] := by
    rintro ⟨v, w, spells, hw⟩
    cases hw
    revert spells
    cases v <;> decide
  have named : NamesTable
      [⟨.word "Select", 0, 6⟩, ⟨.word "FROM", 7, 11⟩, ⟨.word "FROM", 12, 16⟩,
        ⟨.word "t-1", 17, 20⟩, ⟨.word "WHERE", 21, 26⟩, ⟨.endOfText, 26, 26⟩] "t-1" :=
    ⟨.select, "Select", _, _, by decide, .select (.one "FROM"), rfl⟩
  have dash : ∃ c ∈ "t-1".toList, c.isAlphanum = false ∧ c ≠ '_' := ⟨'-', by decide⟩
  exact ⟨((refusals_classified _).2.2.2.1 _).mpr ⟨_, misnamed, named, dash⟩,
    ((refusals_classified _).1 _ unclosed).1,
    (refusals_classified _).2.2.2.2.1 .insert (by decide),
    (refusals_classified _).2.1 _ dropped noVerb⟩

end Statement

end TableStore.Sql
