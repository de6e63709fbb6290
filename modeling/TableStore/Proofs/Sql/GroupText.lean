import TableStore.Sql.ValueGroup
import TableStore.Proofs.Outcome
import TableStore.Proofs.Text.Runs

/-! The texts that are groups of values, and why every other text is refused. An entry is quoted
or bare text with padding around it, and a group is one entry or more with commas between them. -/
namespace TableStore.Sql.ValueGroup

open TableStore.Text TableStore.Outcome

/-- Whitespace and parentheses, in any number. -/
def Padding (cs : List Char) : Prop :=
  ∀ c ∈ cs, isBlank c = true ∨ c = '(' ∨ c = ')'

/-- Text without the separator of entries and without quotes. -/
def Bare (cs : List Char) : Prop :=
  ',' ∉ cs ∧ quoteMark ∉ cs

/-- An entry ends with the text or before a comma. -/
def Stops (after : List Char) : Prop :=
  ∀ c ∈ after.head?, c = ','

/-- The text of an entry and its value, which is quoted or begins and ends with what is no
padding. -/
inductive IsEntry : List Char → List Char → Prop where
  | quoted {before value stop : List Char} (hb : Padding before) (hs : Padding stop) :
      IsEntry (before ++ quote value ++ stop) value
  | bare {before value stop : List Char} (hb : Padding before) (hs : Padding stop)
      (hv : Bare value) (ne : value ≠ []) (first : ∀ c ∈ value.head?, ¬Padding [c])
      (last : ∀ c ∈ value.getLast?, ¬Padding [c]) : IsEntry (before ++ value ++ stop) value

/-- The ways in which a text begins with no entry, and the fault of each: there is no value,
no quote closes the value, a quote opens after bare text, or a character that is no comma
stands after the closed value. -/
inductive NoEntry : List Char → Fault → Prop where
  | empty {padding rest : List Char} (hp : Padding padding) (hr : Stops rest) :
      NoEntry (padding ++ rest) emptyValue
  | unclosed {before value : List Char} (hb : Padding before) :
      NoEntry (before ++ quoteMark :: doubleQuotes value) unclosedQuote
  | quoteAfter {text rest : List Char} (ht : Bare text) (hp : ¬Padding text) :
      NoEntry (text ++ quoteMark :: rest) (quoteAfter text)
  | textAfter {before value stop rest : List Char} {c : Char} (hb : Padding before)
      (hs : Padding stop) (hc : ¬Padding [c]) (ne : c ≠ ',') (hq : stop = [] → c ≠ quoteMark) :
      NoEntry (before ++ quote value ++ (stop ++ c :: rest)) (textAfter c value)

/-- A text begins with an entry, or in one of the ways of `NoEntry`. -/
def Decided (cs : List Char) : Prop :=
  (∃ front value after, cs = front ++ after ∧ IsEntry front value ∧ Stops after) ∨
    ∃ fault, NoEntry cs fault

/-- The text of a group and its values: one entry or more, with a comma between two. -/
inductive IsGroup : List Char → List String → Prop where
  | one {cs value : List Char} (head : IsEntry cs value) : IsGroup cs [String.ofList value]
  | more {cs value rest : List Char} {values : List String} (head : IsEntry cs value)
      (tail : IsGroup rest values) :
      IsGroup (cs ++ ',' :: rest) (String.ofList value :: values)

/-- After entries and their commas comes what is no entry, with its fault. -/
inductive NoGroup : List Char → Fault → Prop where
  | here {cs : List Char} {fault : Fault} (head : NoEntry cs fault) : NoGroup cs fault
  | later {cs value rest : List Char} {fault : Fault} (head : IsEntry cs value)
      (tail : NoGroup rest fault) : NoGroup (cs ++ ',' :: rest) fault

variable {cs before text value stop rest after : List Char} {values : List String} {fault : Fault}
  {c : Char}

theorem padding_iff : Padding cs ↔ ∀ c ∈ cs, isPadding c = true := by
  simp only [Padding, isPadding, Bool.or_eq_true, beq_iff_eq, or_assoc]

theorem not_padding_singleton : ¬Padding [c] ↔ isPadding c = false := by
  simp [padding_iff]

theorem bare_iff : Bare cs ↔ ∀ c ∈ cs, isBare c = true := by
  simp only [Bare, isBare, Bool.and_eq_true, bne_iff_ne]
  constructor
  · rintro ⟨hc, hq⟩ c hm
    exact ⟨fun h => hc (h ▸ hm), fun h => hq (h ▸ hm)⟩
  · intro h
    exact ⟨fun hm => (h _ hm).1 rfl, fun hm => (h _ hm).2 rfl⟩

theorem Padding.bare (h : Padding cs) : Bare cs := by
  constructor
  · intro hm
    cases padding_iff.mp h _ hm
  · intro hm
    cases padding_iff.mp h _ hm

theorem Padding.append (h : Padding cs) (hr : Padding rest) : Padding (cs ++ rest) :=
  List.forall_mem_append.mpr ⟨h, hr⟩

theorem Bare.append (h : Bare cs) (hr : Bare rest) : Bare (cs ++ rest) := by
  simp only [Bare, List.mem_append, not_or]
  exact ⟨⟨h.1, hr.1⟩, h.2, hr.2⟩

theorem Stops.comma (rest : List Char) : Stops (',' :: rest) := by
  rintro c ⟨⟩
  rfl

theorem Stops.isPadding (h : Stops after) : ∀ c ∈ after.head?, isPadding c = false := by
  intro c hc
  rw [h c hc]
  rfl

theorem Stops.isBare (h : Stops after) : ∀ c ∈ after.head?, isBare c = false := by
  intro c hc
  rw [h c hc]
  rfl

theorem Stops.head?_ne (h : Stops after) : after.head? ≠ some quoteMark := by
  intro hq
  cases h _ hq

/-- An entry is quoted if a quote comes after its padding, and bare if not. -/
theorem entry_quote (hb : Padding before) :
    entry (before ++ quoteMark :: rest) = quotedEntry rest := by
  unfold entry
  rw [dropWhile_append_stop (padding_iff.mp hb) (by rintro c ⟨⟩; rfl)]
  exact if_pos rfl

theorem entry_quoted (hb : Padding before) :
    entry (before ++ quote value ++ rest) =
      quotedEntry (doubleQuotes value ++ quoteMark :: rest) := by
  rw [← entry_quote hb]
  simp [quote]

theorem entry_other (hb : Padding before) (hc : ¬Padding [c]) (hq : c ≠ quoteMark) :
    entry (before ++ c :: rest) = bareEntry (before ++ c :: rest) := by
  unfold entry
  rw [dropWhile_append_stop (padding_iff.mp hb)
    (by rintro d ⟨⟩; exact not_padding_singleton.mp hc)]
  exact if_neg hq

theorem entry_padding (h : Padding cs) : entry cs = bareEntry cs := by
  unfold entry
  rw [List.dropWhile_eq_nil_iff.mpr (padding_iff.mp h)]

theorem entry_bare (ht : Bare text) (h : Padding text → Stops rest) :
    entry (text ++ rest) = bareEntry (text ++ rest) := by
  by_cases hp : Padding text
  · cases rest with
    | nil =>
      rw [List.append_nil]
      exact entry_padding hp
    | cons c rest =>
      obtain rfl := h hp c rfl
      exact entry_other hp (not_padding_singleton.mpr rfl) (by decide)
  · have some : text.dropWhile isPadding ≠ [] := by
      simpa [padding_iff, List.dropWhile_eq_nil_iff] using hp
    obtain ⟨c, cs, hc⟩ := List.exists_cons_of_ne_nil some
    have hb : Padding (text.takeWhile isPadding) :=
      padding_iff.mpr fun c => List.mem_takeWhile_imp
    have outside : ¬Padding [c] :=
      not_padding_singleton.mpr (head?_dropWhile isPadding text c (by rw [hc]; rfl))
    rw [← List.takeWhile_append_dropWhile (p := isPadding) (l := text), hc] at ht ⊢
    rw [List.append_assoc]
    refine entry_other hb outside ?_
    rintro rfl
    exact ht.2 (by simp)

theorem head?_padding_append (hs : Padding stop)
    (hr : stop = [] → rest.head? ≠ some quoteMark) : (stop ++ rest).head? ≠ some quoteMark := by
  cases stop with
  | nil => exact hr rfl
  | cons c stop =>
    rintro ⟨⟩
    cases padding_iff.mp hs _ List.mem_cons_self

theorem quotedEntry_of_stops (hs : Padding stop) (ha : Stops after) :
    quotedEntry (doubleQuotes value ++ quoteMark :: (stop ++ after)) = .ok (value, after) := by
  unfold quotedEntry
  rw [readQuoted_quote value (head?_padding_append hs fun _ => ha.head?_ne)]
  simp only
  rw [dropWhile_append_stop (padding_iff.mp hs) ha.isPadding]
  cases after with
  | nil => rfl
  | cons c after => exact if_pos (ha c rfl)

theorem quotedEntry_of_text (hs : Padding stop) (hc : ¬Padding [c]) (ne : c ≠ ',')
    (hq : stop = [] → c ≠ quoteMark) :
    quotedEntry (doubleQuotes value ++ quoteMark :: (stop ++ c :: rest)) =
      .error (textAfter c value) := by
  have closed : stop = [] → (c :: rest).head? ≠ some quoteMark :=
    fun hnil h => hq hnil (Option.some.inj h)
  have ends : ∀ d ∈ (c :: rest).head?, isPadding d = false := by
    rintro d ⟨⟩
    exact not_padding_singleton.mp hc
  unfold quotedEntry
  rw [readQuoted_quote value (head?_padding_append hs closed)]
  simp only
  rw [dropWhile_append_stop (padding_iff.mp hs) ends]
  exact if_neg ne

theorem quotedEntry_of_open : quotedEntry (doubleQuotes value) = .error unclosedQuote := by
  unfold quotedEntry
  rw [readQuoted_eq_none.mpr ⟨value, rfl⟩]

theorem bareEntry_of_quote (ht : Bare text) :
    bareEntry (text ++ quoteMark :: rest) = .error (quoteAfter text) := by
  have ends : ∀ c ∈ (quoteMark :: rest).head?, isBare c = false := by
    rintro c ⟨⟩
    rfl
  unfold bareEntry
  rw [takeWhile_append_stop (bare_iff.mp ht) ends, dropWhile_append_stop (bare_iff.mp ht) ends]
  exact if_pos rfl

theorem bareEntry_of_stops (ht : Bare text) (ha : Stops after) :
    bareEntry (text ++ after) = if strip isPadding text = [] then .error emptyValue
      else .ok (strip isPadding text, after) := by
  unfold bareEntry
  rw [takeWhile_append_stop (bare_iff.mp ht) ha.isBare,
    dropWhile_append_stop (bare_iff.mp ht) ha.isBare, if_neg ha.head?_ne]
  split
  · next h => exact (if_pos h).symm
  · next h => exact (if_neg h).symm

theorem strip_eq_nil : strip isPadding text = [] ↔ Padding text := by
  rw [strip_eq_iff]
  constructor
  · rintro ⟨start, stop, rfl, hstart, hstop, -⟩
    simp only [List.append_nil, padding_iff, List.forall_mem_append]
    exact ⟨hstart, hstop⟩
  · intro h
    exact ⟨text, [], by simp, padding_iff.mp h, nofun, nofun, nofun⟩

theorem IsEntry.entry_eq (h : IsEntry cs value) (ha : Stops after) :
    entry (cs ++ after) = .ok (value, after) := by
  cases h with
  | quoted hb hs => rw [List.append_assoc, entry_quoted hb, quotedEntry_of_stops hs ha]
  | @bare before _ stop hb hs hv ne first last =>
    have stripped : strip isPadding (before ++ value ++ stop) = value :=
      strip_eq_iff.mpr ⟨before, stop, rfl, padding_iff.mp hb, padding_iff.mp hs,
        fun c hc => not_padding_singleton.mp (first c hc),
        fun c hc => not_padding_singleton.mp (last c hc)⟩
    have text : Bare (before ++ value ++ stop) := (hb.bare.append hv).append hs.bare
    rw [entry_bare text fun _ => ha, bareEntry_of_stops text ha, stripped, if_neg ne]

theorem NoEntry.entry_eq (h : NoEntry cs fault) : entry cs = .error fault := by
  cases h with
  | empty hp hr =>
    rw [entry_bare hp.bare fun _ => hr, bareEntry_of_stops hp.bare hr, if_pos (strip_eq_nil.mpr hp)]
  | unclosed hb => rw [entry_quote hb, quotedEntry_of_open]
  | quoteAfter ht hp => rw [entry_bare ht fun h => absurd h hp, bareEntry_of_quote ht]
  | textAfter hb hs hc ne hq => rw [entry_quoted hb, quotedEntry_of_text hs hc ne hq]

/-- After its padding a quote opens the text of an entry: another closes it or none does, and
what comes after the padding behind it decides. -/
theorem decided_of_quote (hb : Padding before) (body : List Char) :
    Decided (before ++ quoteMark :: body) := by
  cases hread : readQuoted body with
  | none =>
    obtain ⟨value, rfl⟩ := readQuoted_eq_none.mp hread
    exact .inr ⟨_, .unclosed hb⟩
  | some p =>
    obtain ⟨value, after⟩ := p
    obtain ⟨rfl, hq⟩ := readQuoted_eq_some.mp hread
    have hs : Padding (after.takeWhile isPadding) :=
      padding_iff.mpr fun c => List.mem_takeWhile_imp
    have hcut : before ++ quoteMark :: (doubleQuotes value ++ quoteMark :: after) =
        before ++ quote value ++ after.takeWhile isPadding ++ after.dropWhile isPadding := by
      simp [quote, List.takeWhile_append_dropWhile]
    cases hd : after.dropWhile isPadding with
    | nil =>
      rw [hd] at hcut
      exact .inl ⟨_, value, [], hcut, .quoted hb hs, nofun⟩
    | cons c rest =>
      rw [hd] at hcut
      by_cases hc : c = ','
      · refine .inl ⟨_, value, c :: rest, hcut, .quoted hb hs, ?_⟩
        rintro d ⟨⟩
        exact hc
      · have hpad : ¬Padding [c] :=
          not_padding_singleton.mpr (head?_dropWhile isPadding after c (by rw [hd]; rfl))
        have hnot : after.takeWhile isPadding = [] → c ≠ quoteMark := by
          rintro hnil rfl
          rw [← List.takeWhile_append_dropWhile (p := isPadding) (l := after), hnil, hd] at hq
          exact hq rfl
        rw [hcut, List.append_assoc]
        exact .inr ⟨_, .textAfter hb hs hpad hc hnot⟩

theorem decided_of_stops (ht : Bare text) (hs : Stops rest) : Decided (text ++ rest) := by
  by_cases hp : Padding text
  · exact .inr ⟨_, .empty hp hs⟩
  · rw [← strip_eq_nil] at hp
    generalize hv : strip isPadding text = value at hp
    obtain ⟨before, stop, rfl, hb, hstop, hfirst, hlast⟩ := strip_eq_iff.mp hv
    refine .inl ⟨_, value, rest, rfl,
      .bare (padding_iff.mpr hb) (padding_iff.mpr hstop) ?_ hp ?_ ?_, hs⟩
    · simp only [Bare, List.mem_append, not_or] at ht
      exact ⟨ht.1.1.2, ht.2.1.2⟩
    · exact fun c hc => not_padding_singleton.mpr (hfirst c hc)
    · exact fun c hc => not_padding_singleton.mpr (hlast c hc)

theorem decided (cs : List Char) : Decided cs := by
  -- The first character that is not bare is a quote, or it ends the entry.
  have ht : Bare (cs.takeWhile isBare) := bare_iff.mpr fun c => List.mem_takeWhile_imp
  have hend := head?_dropWhile isBare cs
  rw [← List.takeWhile_append_dropWhile (p := isBare) (l := cs)]
  generalize cs.takeWhile isBare = text at ht
  generalize cs.dropWhile isBare = rest at hend
  by_cases hq : rest.head? = some quoteMark
  · obtain ⟨body, rfl⟩ := List.head?_eq_some_iff.mp hq
    by_cases hp : Padding text
    · exact decided_of_quote hp body
    · exact .inr ⟨_, .quoteAfter ht hp⟩
  · refine decided_of_stops ht fun c hc => ?_
    have hnot := hend c hc
    simp only [isBare, Bool.and_eq_false_iff, bne_eq_false_iff_eq] at hnot
    rcases hnot with rfl | rfl
    · rfl
    · exact absurd hc hq

theorem entry_eq_ok : entry cs = .ok (value, after) ↔
    ∃ front, cs = front ++ after ∧ IsEntry front value ∧ Stops after := by
  constructor
  · intro h
    rcases decided cs with ⟨front, value, after, rfl, head, stops⟩ | ⟨fault, hno⟩
    · cases h.symm.trans (head.entry_eq stops)
      exact ⟨front, rfl, head, stops⟩
    · cases h.symm.trans hno.entry_eq
  · rintro ⟨front, rfl, head, stops⟩
    exact head.entry_eq stops

theorem entry_eq_error : entry cs = .error fault ↔ NoEntry cs fault := by
  constructor
  · intro h
    rcases decided cs with ⟨front, value, after, rfl, head, stops⟩ | ⟨fault, hno⟩
    · cases h.symm.trans (head.entry_eq stops)
    · cases h.symm.trans hno.entry_eq
      exact hno
  · exact NoEntry.entry_eq

/-- The entry was the last one, or a separator stands after it. -/
theorem readFrom_of_entry {cs value after : List Char} (h : entry cs = .ok (value, after)) :
    (after = [] → readFrom cs = .ok [String.ofList value]) ∧
    ∀ c more, after = c :: more →
      readFrom cs = (readFrom more).map (String.ofList value :: ·) := by
  constructor
  · rintro rfl
    unfold readFrom
    split
    · next he => cases h.symm.trans he
    · next he =>
      cases h.symm.trans he
      rfl
    · next he => cases h.symm.trans he
  · rintro c more rfl
    conv => lhs; unfold readFrom
    split
    · next he => cases h.symm.trans he
    · next he => cases h.symm.trans he
    · next he =>
      cases h.symm.trans he
      rfl

theorem readFrom_of_entry_error {cs : List Char} {fault : Fault} (h : entry cs = .error fault) :
    readFrom cs = .error fault := by
  unfold readFrom
  split
  · next he =>
    cases h.symm.trans he
    rfl
  · next he => cases h.symm.trans he
  · next he => cases h.symm.trans he

theorem IsEntry.readFrom_last (h : IsEntry cs value) : readFrom cs = .ok [String.ofList value] := by
  have he : entry (cs ++ []) = _ := h.entry_eq nofun
  rw [List.append_nil] at he
  exact (readFrom_of_entry he).1 rfl

theorem IsEntry.readFrom_comma (h : IsEntry cs value) (rest : List Char) :
    readFrom (cs ++ ',' :: rest) = (readFrom rest).map (String.ofList value :: ·) :=
  (readFrom_of_entry (h.entry_eq (.comma rest))).2 ',' rest rfl

theorem readFrom_eq_ok : readFrom cs = .ok values ↔ IsGroup cs values := by
  constructor
  · intro h
    fun_induction readFrom cs generalizing values with
    | case1 => cases h
    | case2 cs value he =>
      obtain ⟨front, rfl, head, -⟩ := entry_eq_ok.mp he
      cases h
      rw [List.append_nil]
      exact .one head
    | case3 cs value c rest he ih =>
      obtain ⟨front, rfl, head, stops⟩ := entry_eq_ok.mp he
      obtain ⟨values, hrest, rfl⟩ := map_eq_ok.mp h
      obtain rfl := stops c rfl
      exact .more head (ih hrest)
  · intro h
    induction h with
    | one head => exact head.readFrom_last
    | more head tail ih => rw [head.readFrom_comma, ih, Except.map]

theorem readFrom_eq_error : readFrom cs = .error fault ↔ NoGroup cs fault := by
  constructor
  · intro h
    fun_induction readFrom cs with
    | case1 cs fault' he =>
      cases h
      exact .here (entry_eq_error.mp he)
    | case2 => cases h
    | case3 cs value c rest he ih =>
      obtain ⟨front, rfl, head, stops⟩ := entry_eq_ok.mp he
      obtain rfl := stops c rfl
      exact .later head (ih (map_eq_error.mp h))
  · intro h
    induction h with
    | here head => exact readFrom_of_entry_error head.entry_eq
    | later head tail ih => rw [head.readFrom_comma, ih, Except.map]

theorem NoEntry.malformed (h : NoEntry cs fault) : ∃ reason, fault = .malformed reason := by
  cases h <;> exact ⟨_, rfl⟩

theorem NoGroup.malformed (h : NoGroup cs fault) : ∃ reason, fault = .malformed reason := by
  induction h with
  | here head => exact head.malformed
  | later head tail ih => exact ih

/-- A text is read as the values of the group it is, and only if it is a group; any other text
is refused where the first entry is missing, which is a fault of syntax. -/
theorem read_exactly_groups (text : String) :
    (∀ values, read text = .ok values ↔ IsGroup text.toList values) ∧
    (∀ fault, read text = .error fault ↔ NoGroup text.toList fault) ∧
    ((∀ values, ¬IsGroup text.toList values) →
      ∃ reason, read text = .error (.malformed reason)) := by
  refine ⟨fun values => readFrom_eq_ok, fun fault => readFrom_eq_error, fun h => ?_⟩
  cases hr : read text with
  | ok values => exact absurd (readFrom_eq_ok.mp hr) (h values)
  | error fault =>
    obtain ⟨reason, rfl⟩ := (readFrom_eq_error.mp hr).malformed
    exact ⟨reason, rfl⟩

end TableStore.Sql.ValueGroup
