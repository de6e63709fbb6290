import TableStore.Proofs.Shell.Account
import TableStore.Proofs.Sql.Refusals

/-! Which way a line of input takes. The shell looks at the first piece between blanks, the reader
at the first token, which other characters end as well. On statements the two agree, since the
second token is a word too, so that only a blank can stand before it. Text that is no statement
is refused for the same fault on every way. -/
namespace TableStore

open TableStore.Text TableStore.Sql TableStore.Outcome

/-- A statement begins with two words. -/
theorem Sql.Production.two_words {text : List Char} {ts : List Spanned} {s : Statement}
    (h : Production text ts s) : ∃ u v us w x, ts = u :: v :: us ∧
      u.token = .word w ∧ v.token = .word x ∧ s.verb.Spells w := by
  have first {v : Verb} {ts : List Spanned} {w x : String} {as : List Token}
      (spells : v.Spells w) (h : ts.map Spanned.token = .word w :: .word x :: as) :
      ∃ u u' us w' x', ts = u :: u' :: us ∧
        u.token = .word w' ∧ u'.token = .word x' ∧ v.Spells w' := by
    obtain ⟨u, us, rfl, hu, hus⟩ := List.map_eq_cons_iff.mp h
    obtain ⟨u', us, rfl, hu', -⟩ := List.map_eq_cons_iff.mp hus
    exact ⟨u, u', us, w, x, rfl, hu, hu', spells⟩
  cases h with
  | create spells isName listed typed tokens => exact first spells tokens
  | insert spells isName listed grouped tokens =>
    obtain ⟨u, v, us, w, x, rfl, hu, hv, spells⟩ := first spells tokens
    exact ⟨u, v, us ++ _, w, x, rfl, hu, hv, spells⟩
  | select spells isName listed filtered ordered tokens =>
    cases listed with
    | one => exact first spells tokens
    | more => exact first spells tokens
  | update spells isName assigned filtered tokens => exact first spells tokens
  | delete spells isName filtered tokens => exact first spells tokens

namespace Shell

/-- Between two words there is a blank, so that the first of them is the first piece. -/
theorem nextPiece_of_two_words {pos : Nat} {cs : List Char} {u v : Spanned} {us : List Spanned}
    {w x : String} (h : Tiles [] pos cs (u :: v :: us)) (hu : u.token = .word w)
    (hv : v.token = .word x) : (nextPiece cs).1 = w.toList := by
  obtain ⟨more, stop, ends, tail, piece⟩ := nextPiece_of_word h hu
  have stopped : (more.takeWhile fun c => !isBlank c) = [] := by
    cases tail with
    | @token _ gap t rest _ blank ends' _ =>
      cases hv
      cases gap with
      | cons b gap => exact List.takeWhile_cons_of_neg (by simp [blank b List.mem_cons_self])
      | nil =>
        -- The second word would go on with the first one.
        obtain ⟨c, ds, hx⟩ := List.exists_cons_of_ne_nil ends'.1
        have solid := ends'.2.1 c (hx ▸ List.mem_cons_self)
        have delimits := ends.2.2 c (by simp [Token.spelling, Token.text, hx])
        cases solid.symm.trans delimits
  rw [piece, stopped, List.append_nil]

/-- The first piece of a statement spells its verb. -/
theorem isSelection_iff {line : List Char} {st : Statement}
    (h : Statement.read (String.ofList line) = .ok st) :
    isSelection line = true ↔ st.verb = .select := by
  obtain ⟨ts, ending, hscan, -, produced⟩ := Statement.read_eq_ok.mp h
  obtain ⟨us, htiles, heq⟩ := Token.scan_eq_ok.mp hscan
  obtain ⟨u, v, more, w, x, rfl, hu, hv, spells⟩ := produced.two_words
  rw [String.toList_ofList] at htiles
  obtain ⟨rest, rfl⟩ : ∃ rest, us = u :: v :: rest := by
    match us, heq with
    | [], heq => cases (List.cons.inj heq).2
    | [a], heq =>
      cases (List.cons.inj (List.cons.inj heq).2).1
      cases hv
    | a :: b :: rest, heq =>
      cases (List.cons.inj heq).1
      cases (List.cons.inj (List.cons.inj heq).2).1
      exact ⟨rest, rfl⟩
  have hpiece := nextPiece_of_two_words htiles hu hv
  unfold isSelection
  rw [hpiece, String.ofList_toList, Verb.ofWord?_eq_some.mpr spells]
  exact beq_iff_eq

end Shell

/-- Refusals of statements that took the wrong way: a selection that was to be queued, and a
change that was to be answered at once. -/
inductive Fault.Misrouted : Fault → Prop
  | queued : Misrouted (.unsupported "SELECT inside a transaction; use query instead")
  | asked (what : String) :
      Misrouted (.unsupported (what ++ " outside a transaction; use begin/exec/commit"))

namespace Fault

theorem not_misrouted_of_ofGrammar {fault : Fault} (h : fault.ofGrammar = true) :
    ¬fault.Misrouted := by
  rintro (_ | what) <;> cases h

theorem not_misrouted_of_ofCommit {fault : Fault} (h : fault.ofCommit = true) :
    ¬fault.Misrouted := by
  rintro (_ | what) <;> cases h

/-- A text begins with another letter than the wording for what is not supported. -/
def BeginsElse (s : String) : Prop :=
  ∃ c, c ≠ 'U' ∧ s.toList.head? = some c

theorem BeginsElse.append {s : String} (h : BeginsElse s) (t : String) : BeginsElse (s ++ t) := by
  obtain ⟨c, hc, hs⟩ := h
  refine ⟨c, hc, ?_⟩
  rw [String.toList_append, List.head?_append, hs]
  rfl

theorem beginsElse_message {fault : Fault} (h : ∀ operation, fault ≠ .unsupported operation) :
    BeginsElse fault.message := by
  cases fault with
  | unsupported operation => exact absurd rfl (h operation)
  | _ =>
    unfold message
    repeat with_reducible refine BeginsElse.append ?_ _
    exact ⟨_, by decide, rfl⟩

/-- The refusals of commands that are not supported are worded like no other fault. -/
theorem eq_of_message_unsupported {fault : Fault} {operation : String}
    (h : fault.message = (unsupported operation).message) : fault = .unsupported operation := by
  by_cases hfault : ∃ other, fault = .unsupported other
  · obtain ⟨other, rfl⟩ := hfault
    have same : "Unsupported operation: " ++ other = "Unsupported operation: " ++ operation := h
    rw [String.append_right_inj] at same
    rw [same]
  · push Not at hfault
    obtain ⟨c, hc, hmessage⟩ := beginsElse_message hfault
    rw [h] at hmessage
    have begins : ("Unsupported operation: " ++ operation).toList.head? = some c := hmessage
    have initial : "Unsupported operation: ".toList.head? = some 'U' := rfl
    rw [String.toList_append, List.head?_append, initial] at begins
    exact absurd (Option.some.inj begins).symm hc

/-- What reads like such a refusal is one. -/
theorem Misrouted.of_message {fault other : Fault} (h : fault.Misrouted)
    (same : other.message = fault.message) : other.Misrouted := by
  cases h with
  | queued => exact eq_of_message_unsupported same ▸ .queued
  | asked what => exact eq_of_message_unsupported same ▸ .asked what

/-- The wordings of these refusals are long, hold blanks and do not end in a quote. -/
theorem Misrouted.wording {operation : String} (h : (unsupported operation).Misrouted) :
    15 < operation.length ∧ ' ' ∈ operation.toList ∧
      operation.toList.getLast? ≠ some '\'' := by
  cases h with
  | queued => decide
  | asked what =>
    have length : " outside a transaction; use begin/exec/commit".length = 45 := rfl
    have last : " outside a transaction; use begin/exec/commit".toList.getLast? = some 't' := rfl
    rw [String.length_append, String.toList_append, List.getLast?_append, last,
      Option.some_or]
    exact ⟨by omega, List.mem_append_right _ (by decide), by decide⟩

/-- What is refused in the place of a verb is worded otherwise: it is short, or a word without
blanks, or a text between quotes. -/
theorem not_misrouted_refusedText {t : Token} (rest : List Char)
    (h : t = .endOfText ∨ t.Ends rest) : ¬(unsupported (Grammar.refusedText t)).Misrouted := by
  intro misrouted
  obtain ⟨long, blank, unquoted⟩ := misrouted.wording
  cases t with
  | endOfText => exact absurd long (by decide)
  | operator op => cases op <;> exact absurd long (by decide)
  | openParen | closeParen | comma | semicolon => exact absurd long (by decide)
  | word w =>
    have delimits : Token.isDelimiter ' ' = true := rfl
    have solid : Token.isDelimiter ' ' = false := (h.resolve_left nofun).2.1 ' ' blank
    cases delimits.symm.trans solid
  | quoted text =>
    have last : (("'" ++ text) ++ "'").toList.getLast? = some '\'' := by
      rw [String.toList_append]
      exact List.getLast?_concat
    exact unquoted last

theorem not_misrouted_of_read {text : String} {fault : Fault}
    (h : Statement.read text = .error fault) : ¬fault.Misrouted := by
  rcases Statement.read_eq_error h with hgrammar | ⟨ts, hscan, rfl⟩
  · exact not_misrouted_of_ofGrammar hgrammar
  · obtain ⟨us, htiles, rfl⟩ := Token.scan_eq_ok.mp hscan
    generalize text.toList = cs at htiles ⊢
    cases htiles with
    | gap blank => exact not_misrouted_refusedText [] (.inl rfl)
    | token blank ends tail => exact not_misrouted_refusedText _ (.inr ends)

end Fault

namespace Shell

/-- The lines for an outcome. -/
def shown : Except Fault Answer → List Output
  | .ok answer => answerLines answer
  | .error fault => failure fault

theorem err_mem_failure {message : String} {fault : Fault} :
    .err message ∈ failure fault ↔ message = "Error: " ++ fault.message :=
  List.mem_singleton.trans (Output.err.injEq ..).to_iff

theorem err_mem_shown {x : Except Fault Answer} {message : String} (h : .err message ∈ shown x) :
    ∃ fault, x = .error fault ∧ message = "Error: " ++ fault.message := by
  cases x with
  | error fault => exact ⟨fault, rfl, err_mem_failure.mp h⟩
  | ok answer =>
    have answered : .err message ∈ answerLines answer := h
    unfold answerLines at answered
    split at answered
    · cases List.mem_singleton.mp answered
    · split at answered
      · cases answered
      · obtain ⟨line, -, hline⟩ := List.mem_map.mp answered
        cases hline

/-- The way of a text as the reader classifies it: a selection is answered at once, a change is
queued in the transaction that is held or runs on its own, and what is neither is refused with
the reader's fault. -/
inductive Routed (s : Session) (text : String) : List Output → Session → Prop
  | answered {st : Statement} (hread : Statement.read text = .ok st) (selects : st.verb = .select) :
      Routed s text (shown (s.db.query text)) s
  | queued {st : Statement} {id : Nat} {db : Database} (hread : Statement.read text = .ok st)
      (changes : st.verb ≠ .select) (held : s.held = some id) (hexec : s.db.exec id text = .ok db) :
      Routed s text [.out ("Queued in transaction " ++ toString id)] ⟨db, some id⟩
  | executed {st : Statement} {outcome : Except Fault Answer} {db : Database}
      (hread : Statement.read text = .ok st) (changes : st.verb ≠ .select) (free : s.held = none)
      (hexecute : s.db.execute? text = some (outcome, db)) :
      Routed s text (shown outcome) ⟨db, none⟩
  | refused {fault : Fault} {s' : Session} (unread : Statement.read text = .error fault)
      (held : s'.held = s.held) (files : s'.db.root = s.db.root) :
      Routed s text (failure fault) s'

theorem isReadOnly_ofStatement (st : Statement) :
    (Command.ofStatement st).isReadOnly = true ↔ st.verb = .select := by
  unfold Command.isReadOnly
  rw [Command.verb_ofStatement]
  exact beq_iff_eq

/-- A selection is answered, or refused as a command is. -/
theorem query_fault {text : String} {st : Statement} (db : Database)
    (hread : Statement.read text = .ok st) (selects : st.verb = .select) :
    FailsIn (fun fault => fault.ofCommit = true) (db.query text) := by
  intro fault hquery
  have asked : db.query text = ((Command.ofStatement st).run db.root).1 := by
    unfold Database.query Command.read
    rw [hread]
    exact if_pos ((isReadOnly_ofStatement st).mpr selects)
  exact Fault.ofCommit_of_ofCommand (Command.run_fault _ _ fault (asked.symm.trans hquery))

/-- A change that runs on its own succeeds, or ends as a commit does. -/
theorem execute?_fault {text : String} {st : Statement} {db after : Database}
    {outcome : Except Fault Answer} (hread : Statement.read text = .ok st)
    (changes : st.verb ≠ .select) (hexecute : db.execute? text = some (outcome, after)) :
    FailsIn (fun fault => fault.ofCommit = true) outcome := by
  have hcommand : Command.read text = .ok (Command.ofStatement st) :=
    congrArg (Except.map Command.ofStatement) hread
  rcases Database.execute?_cases (Database.free_of_execute? hexecute) text with
    ⟨reading, -⟩ | ⟨c, -, -, hcommit⟩
  · exact absurd ((isReadOnly_ofStatement st).mp (reading _ hcommand)) changes
  · cases hexecute.symm.trans hcommit
    exact (runQueue_fault db.root [] [c]).map

/-- Every line on the error stream is a fault of the reader, or one in which a command or a commit
can end. -/
theorem Routed.fault_of_err {s s' : Session} {text message : String} {output : List Output}
    (h : Routed s text output s') (hmem : .err message ∈ output) :
    ∃ fault : Fault, message = "Error: " ++ fault.message ∧
      (Statement.read text = .error fault ∨ fault.ofCommit = true) := by
  cases h with
  | answered hread selects =>
    obtain ⟨fault, hquery, hmessage⟩ := err_mem_shown hmem
    exact ⟨fault, hmessage, .inr (query_fault s.db hread selects fault hquery)⟩
  | queued => cases List.mem_singleton.mp hmem
  | executed hread changes free hexecute =>
    obtain ⟨fault, houtcome, hmessage⟩ := err_mem_shown hmem
    exact ⟨fault, hmessage, .inr (execute?_fault hread changes hexecute fault houtcome)⟩
  | refused unread held files => exact ⟨_, err_mem_failure.mp hmem, .inl unread⟩

theorem Routed.not_misrouted {s s' : Session} {text : String} {output : List Output}
    {fault : Fault} (h : Routed s text output s') (misrouted : fault.Misrouted) :
    .err ("Error: " ++ fault.message) ∉ output := by
  intro hmem
  obtain ⟨shownFault, hsame, origin⟩ := h.fault_of_err hmem
  rw [String.append_right_inj] at hsame
  have wrong : shownFault.Misrouted := misrouted.of_message hsame.symm
  rcases origin with unread | committed
  · exact Fault.not_misrouted_of_read unread wrong
  · exact Fault.not_misrouted_of_ofCommit committed wrong

namespace Session

variable {s : Session} {root : Root} {a : Account}

/-- Text that is no statement is refused for the reader's fault, whichever way it took. -/
theorem Agrees.refused {fault : Fault} (h : s.Agrees root a) (line : List Char)
    (unread : Statement.read (String.ofList line) = .error fault) :
    Routed s (String.ofList line) (s.statement line).1 (s.statement line).2 := by
  have hcommand : Command.read (String.ofList line) = .error fault :=
    congrArg (Except.map Command.ofStatement) unread
  unfold Session.statement
  split
  · have hquery : s.db.query (String.ofList line) = .error fault := by
      unfold Database.query
      rw [hcommand]
      rfl
    simp only [hquery]
    exact .refused unread rfl rfl
  · cases hs : s.held with
    | some id =>
      obtain ⟨t, ht, hid, -⟩ := h.taken hs
      have hexec : s.db.exec id (String.ofList line) = .error fault := by
        unfold Database.exec Slot.exec
        rw [Slot.find_eq_ok.mpr ⟨ht, hid⟩, hcommand]
        rfl
      simp only [hexec]
      exact .refused unread rfl rfl
    | none =>
      simp only [Database.execute?_of_read_error (h.free hs).1 hcommand]
      exact .refused unread hs.symm rfl

/-- A statement takes the way of its verb. -/
theorem Agrees.accepted {st : Statement} (h : s.Agrees root a) (line : List Char)
    (hread : Statement.read (String.ofList line) = .ok st) :
    Routed s (String.ofList line) (s.statement line).1 (s.statement line).2 := by
  have hcommand : Command.read (String.ofList line) = .ok (Command.ofStatement st) :=
    congrArg (Except.map Command.ofStatement) hread
  unfold Session.statement
  by_cases hline : isSelection line = true
  · have answered := Routed.answered (s := s) hread ((isSelection_iff hread).mp hline)
    rw [if_pos hline]
    cases hquery : s.db.query (String.ofList line) <;> rw [hquery] at answered <;> exact answered
  · have changes : st.verb ≠ .select := fun hverb => hline ((isSelection_iff hread).mpr hverb)
    rw [if_neg hline]
    cases hs : s.held with
    | some id =>
      obtain ⟨t, ht, hid, -⟩ := h.taken hs
      have writes : (Command.ofStatement st).isReadOnly = false :=
        Bool.eq_false_iff.mpr fun reads => changes ((isReadOnly_ofStatement st).mp reads)
      have hslot := Slot.exec_eq_ok.mpr
        ⟨_, hcommand, Slot.enqueue_eq_ok.mpr ⟨t, ht, hid, writes, rfl⟩⟩
      have hexec : s.db.exec id (String.ofList line) = _ := Outcome.map_eq_ok.mpr ⟨_, hslot, rfl⟩
      simp only [hexec]
      exact .queued hread changes hs hexec
    | none =>
      obtain ⟨⟨outcome, db⟩, hexecute, -⟩ := h.executed hs (String.ofList line)
      have executed := Routed.executed hread changes hs hexecute
      simp only [hexecute]
      cases outcome <;> exact executed

theorem Agrees.routed (h : s.Agrees root a) (line : List Char) :
    Routed s (String.ofList line) (s.statement line).1 (s.statement line).2 := by
  cases hread : Statement.read (String.ofList line) with
  | error fault => exact h.refused line hread
  | ok st => exact h.accepted line hread

theorem step_eq_statement {line : String} {cs : List Char}
    (stripped : strip isBlank line.toList = cs) (nonempty : cs ≠ [])
    (undotted : cs.head? ≠ some '.') :
    s.step line = ((s.statement cs).1, (s.statement cs).2, true) := by
  unfold step
  rw [stripped]
  split
  · exact absurd rfl nonempty
  · exact absurd rfl undotted
  · rfl

/-- A line that is no dot command is routed as the reader classifies it, after any other lines.
If it is a statement, its first piece spells the verb of a selection just if it is one, so that
it is answered, queued or run on its own as its verb asks for; else the line that is printed is
the reader's fault. No refusal of a statement that took the wrong way is ever printed. -/
theorem step_routed (root : Root) (earlier : List String) {line : String} {cs : List Char}
    (stripped : strip isBlank line.toList = cs) (nonempty : cs ≠ [])
    (undotted : cs.head? ≠ some '.') :
    let s := Session.after { db := { root } } earlier
    let r := s.step line
    (∀ st, Statement.read (String.ofList cs) = .ok st →
      (isSelection cs = true ↔ st.verb = .select)) ∧
    Routed s (String.ofList cs) r.1 r.2.1 ∧ r.2.2 = true ∧
    ∀ fault : Fault, fault.Misrouted → .err ("Error: " ++ fault.message) ∉ r.1 := by
  intro s r
  have agrees : s.Agrees root (Account.ofLines root earlier) :=
    Agrees.after ⟨rfl, rfl, Root.SameEntries.refl root⟩ earlier
  have routed : Routed s (String.ofList cs) r.1 r.2.1 ∧ r.2.2 = true := by
    have hstep : r = _ := step_eq_statement stripped nonempty undotted
    rw [hstep]
    exact ⟨agrees.routed cs, rfl⟩
  exact ⟨fun st => isSelection_iff, routed.1, routed.2, fun fault => routed.1.not_misrouted⟩

/-- A selection in an open transaction, with a blank of its own behind its verb, and a line whose
first piece is no verb, though its first token is. -/
theorem step_routed_spaced :
    let root : Root :=
      ⟨"db", .directory (Directory.empty.put "t.csv" (.file "a\nint64\n1\n".toUTF8))⟩
    let s := Session.after { db := { root } } [".begin"]
    let selection := s.step " Select\u2003a FROM t;"
    let refusal := s.step "SELECT(a) FROM t;"
    s.held = some 1 ∧
      isSelection "Select\u2003a FROM t;".toList = true ∧
      Routed s "Select\u2003a FROM t;" selection.1 selection.2.1 ∧ selection.2.2 = true ∧
      .out "| 1 |" ∈ selection.1 ∧
      isSelection "SELECT(a) FROM t;".toList = false ∧
      Routed s "SELECT(a) FROM t;" refusal.1 refusal.2.1 ∧ refusal.2.2 = true ∧
      refusal.1 =
        [.err "Error: Parse error: unexpected token '(', expected column name"] := by
  intro root s selection refusal
  have stripped : strip isBlank " Select\u2003a FROM t;".toList =
      "Select\u2003a FROM t;".toList := by
    decide
  have kept : strip isBlank "SELECT(a) FROM t;".toList = "SELECT(a) FROM t;".toList := by
    decide
  obtain ⟨-, selected, goesOn, -⟩ := step_routed root [".begin"] stripped (by decide) (by decide)
  obtain ⟨-, refused, goesOn', -⟩ := step_routed root [".begin"] kept (by decide) (by decide)
  rw [String.ofList_toList] at selected
  exact ⟨rfl, by decide, selected, goesOn, by decide +kernel, by decide, refused, goesOn',
    by decide +kernel⟩

end Session

end Shell

end TableStore
