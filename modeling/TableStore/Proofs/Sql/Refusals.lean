import TableStore.Proofs.Sql.GroupText
import TableStore.Proofs.Sql.Statement

/-! Why texts are refused. What cannot be cut into tokens, or breaks the grammar after its verb,
is a fault of syntax or a bad name of a table; a text whose first word is no verb is refused for
that word. -/
namespace TableStore

open TableStore.Text TableStore.Sql TableStore.Outcome

def Fault.ofGrammar : Fault → Bool
  | .badTableName _ => true
  | fault => fault.isSyntax

abbrev SyntaxFault (x : Except Fault α) : Prop :=
  FailsIn (fun fault => fault.isSyntax = true) x

abbrev GrammarFault (x : Except Fault α) : Prop :=
  FailsIn (fun fault => fault.ofGrammar = true) x

theorem Fault.ofGrammar_of_isSyntax {fault : Fault} (h : fault.isSyntax = true) :
    fault.ofGrammar = true := by
  cases fault with
  | badTableName name => rfl
  | _ => exact h

theorem grammarFault_of_syntaxFault {x : Except Fault α} (h : SyntaxFault x) : GrammarFault x :=
  h.imp fun _ => Fault.ofGrammar_of_isSyntax

/-- The outcome is a value, a fault of syntax, or the refusal of a name with this property. -/
abbrev NameFault (Q : String → Prop) (x : Except Fault α) : Prop :=
  FailsIn (fun fault => fault.isSyntax = true ∨ ∃ name, fault = .badTableName name ∧ Q name) x

theorem nameFault_of_syntaxFault {Q : String → Prop} {x : Except Fault α} (h : SyntaxFault x) :
    NameFault Q x :=
  h.imp fun _ => .inl

theorem grammarFault_of_nameFault {Q : String → Prop} {x : Except Fault α} (h : NameFault Q x) :
    GrammarFault x := by
  refine h.imp ?_
  rintro fault (hs | ⟨name, rfl, -⟩)
  · exact Fault.ofGrammar_of_isSyntax hs
  · rfl

namespace Sql

theorem Token.next_fault (start : Nat) (c : Char) (rest : List Char) :
    SyntaxFault (next start c rest) := by
  unfold next
  split
  · exact .ok _
  · refine .ite (.error rfl) (.ite ?_ (.ok _))
    split
    · exact .ok _
    · exact .error rfl

theorem Token.scanFrom_fault (pos : Nat) (cs : List Char) : SyntaxFault (scanFrom pos cs) := by
  fun_induction scanFrom pos cs with
  | case1 => exact .ok _
  | case2 pos cs c rest hc start fault hn =>
    exact .error (next_fault start c rest fault hn)
  | case3 pos cs c rest hc start t after hn stop ih => exact ih.map

theorem Token.scan_fault (text : String) : SyntaxFault (scan text) :=
  scanFrom_fault 0 text.toList

theorem ValueGroup.read_fault (text : String) : SyntaxFault (read text) := by
  intro fault h
  obtain ⟨reason, rfl⟩ := (readFrom_eq_error.mp h).malformed
  rfl

namespace Grammar

theorem unexpected_fault (expected : String) (ts : List Spanned) :
    SyntaxFault (unexpected expected ts : Except Fault α) :=
  .error rfl

theorem expect_fault (token : Token) (ts : List Spanned) : SyntaxFault (expect token ts) :=
  .ite (.ok _) (unexpected_fault _ _)

theorem word_fault (what : String) (ts : List Spanned) : SyntaxFault (word what ts) := by
  unfold word
  split
  · exact .ok _
  · exact unexpected_fault _ _

theorem tableName_fault (ts : List Spanned) :
    NameFault (fun name => ¬IsName name ∧ ∃ rest, Takes ts [.word name] rest) (tableName ts) := by
  refine .bind_of_ok (nameFault_of_syntaxFault (word_fault _ _)) ?_
  rintro ⟨name, rest⟩ hword
  dsimp only
  split
  · exact .ok _
  · next hname =>
    exact .error (.inr ⟨name, rfl, mt isTableName_iff.mpr hname, rest, word_eq_ok.mp hword⟩)

theorem words_fault (what : String) (ts : List Spanned) : SyntaxFault (words what ts) := by
  fun_induction words what ts with
  | case1 w _ _ _ _ ts ih => exact .bind ih fun _ => .ok _
  | case2 => exact .ok _
  | case3 => exact unexpected_fault _ _

theorem wordGroup_fault (what : String) (ts : List Spanned) : SyntaxFault (wordGroup what ts) :=
  .bind (expect_fault _ _) fun _ => .bind (words_fault _ _) fun _ =>
    .bind (expect_fault _ _) fun _ => .ok _

theorem closing_fault (depth : Nat) (ts : List Spanned) : SyntaxFault (closing depth ts) := by
  induction ts generalizing depth with
  | nil => exact unexpected_fault _ _
  | cons t ts ih =>
    unfold closing
    split
    · exact ih _
    · split
      · exact .ok _
      · exact ih _
    · exact unexpected_fault _ _
    · exact ih _

theorem groups_fault (text : List Char) (ts : List Spanned) : SyntaxFault (groups text ts) := by
  fun_induction groups text ts with
  | case1 start stop ts fault hc => exact .error (closing_fault 0 ts fault hc)
  | case2 start stop ts closed after hc ih =>
    refine .bind (ValueGroup.read_fault _) fun values => ?_
    split
    · next start stop more => exact .bind (ih start stop more rfl) fun _ => .ok _
    · exact .ok _
  | case3 => exact unexpected_fault _ _

theorem assignments_fault (ts : List Spanned) : SyntaxFault (assignments ts) := by
  fun_induction assignments ts with
  | case2 column start stop start' stop' t value literal _ _ more ih =>
    exact .bind ih fun _ => .ok _
  | case3 => exact .ok _
  | case1 | case4 | case5 | case6 => exact unexpected_fault _ _

theorem condition_fault (ts : List Spanned) : SyntaxFault (condition ts) := by
  refine .ite (.bind ?_ fun _ => .ok _) (.ok _)
  unfold Condition.ofTokens
  split
  · exact .ok _
  · exact .error rfl
  · exact .error rfl
  · exact .error rfl

theorem order_fault (ts : List Spanned) : SyntaxFault (order ts) :=
  .ite (.bind (expect_fault _ _) fun _ => .bind (word_fault _ _) fun _ => .ok _) (.ok _)

/-- What stands between the verb of a statement and the name of its table. -/
inductive BeforeTable : Verb → List Token → Prop
  | create : BeforeTable .create [.word "TABLE"]
  | insert : BeforeTable .insert [.word "INTO"]
  | select {cs : List Token} {columns : List String} (listed : WordList cs columns) :
      BeforeTable .select (cs ++ [.word "FROM"])
  | update : BeforeTable .update []
  | delete : BeforeTable .delete [.word "FROM"]

/-- In the place of the table's name stands a word that is no name. -/
def Misnames (v : Verb) (ts : List Spanned) (name : String) : Prop :=
  ¬IsName name ∧ ∃ before rest, BeforeTable v before ∧ Takes ts (before ++ [.word name]) rest

theorem named_fault {v : Verb} {ts mid : List Spanned} {before : List Token}
    {f : String × List Spanned → Except Fault α} (hbefore : BeforeTable v before)
    (h : Takes ts before mid) (hf : ∀ p, SyntaxFault (f p)) :
    NameFault (Misnames v ts) (tableName mid >>= f) := by
  refine .bind ((tableName_fault mid).imp ?_) fun p => nameFault_of_syntaxFault (hf p)
  rintro fault (hs | ⟨name, rfl, hname, rest, hrest⟩)
  · exact .inl hs
  · exact .inr ⟨name, rfl, hname, before, rest, hbefore, h.trans hrest⟩

theorem body_fault (text : List Char) (ts : List Spanned) (v : Verb) :
    NameFault (Misnames v ts) (body text ts v) := by
  have syn {β : Type} {x : Except Fault β} (h : SyntaxFault x) : NameFault (Misnames v ts) x :=
    nameFault_of_syntaxFault h
  cases v with
  | create =>
    exact .bind_of_ok (syn (expect_fault _ _)) fun mid h =>
      named_fault .create (keyword_eq_ok.mp h) fun _ => .bind (wordGroup_fault _ _) fun _ =>
      .bind (expect_fault _ _) fun _ => .bind (expect_fault _ _) fun _ =>
      .bind (wordGroup_fault _ _) fun _ => .ok _
  | insert =>
    exact .bind_of_ok (syn (expect_fault _ _)) fun mid h =>
      named_fault .insert (keyword_eq_ok.mp h) fun _ => .bind (wordGroup_fault _ _) fun _ =>
      .bind (expect_fault _ _) fun _ => .bind (groups_fault _ _) fun _ => .ok _
  | select =>
    refine .bind_of_ok (syn (words_fault _ _)) fun ⟨columns, after⟩ h => ?_
    obtain ⟨cs, listed, hcolumns, -⟩ := words_eq_ok.mp h
    exact .bind_of_ok (syn (expect_fault _ _)) fun mid h' =>
      named_fault (.select listed) (hcolumns.trans (keyword_eq_ok.mp h')) fun _ =>
      .bind (condition_fault _) fun _ => .bind (order_fault _) fun _ => .ok _
  | update =>
    exact named_fault .update (.nil ts) fun _ => .bind (expect_fault _ _) fun _ =>
      .bind (assignments_fault _) fun _ => .bind (condition_fault _) fun _ => .ok _
  | delete =>
    exact .bind_of_ok (syn (expect_fault _ _)) fun mid h =>
      named_fault .delete (keyword_eq_ok.mp h) fun _ => .bind (condition_fault _) fun _ => .ok _

theorem finish_fault (ts : List Spanned) : SyntaxFault (finish ts) :=
  .ite (.ok _) (unexpected_fault _ _)

/-- What a text is refused for whose first token is no verb. -/
def refusedText : Token → String
  | .endOfText => "empty statement"
  | other => other.text

theorem verb_eq_error {t : Token} {fault : Fault} (h : verb t = .error fault) :
    fault = .unsupported (refusedText t) := by
  unfold verb at h
  split at h
  · split at h
    · cases h
    · cases h
      rfl
  · cases h
    rfl
  · cases h
    cases t <;> first | rfl | contradiction

end Grammar

/-- A text that is no statement is refused for its syntax, for the name of its table, or for
what stands in the place of its verb. -/
theorem Statement.read_eq_error {text : String} {fault : Fault}
    (h : Statement.read text = .error fault) : fault.ofGrammar = true ∨
      ∃ ts, Token.scan text = .ok ts ∧
        fault = .unsupported (Grammar.refusedText (Grammar.current ts)) := by
  unfold Statement.read at h
  cases hscan : Token.scan text with
  | error fault' =>
    rw [hscan] at h
    cases h
    exact .inl (Fault.ofGrammar_of_isSyntax (Token.scan_fault text fault hscan))
  | ok ts =>
    rw [hscan, Outcome.ok_bind] at h
    cases hverb : Grammar.verb (Grammar.current ts) with
    | error fault' =>
      rw [hverb] at h
      cases h
      exact .inr ⟨ts, rfl, Grammar.verb_eq_error hverb⟩
    | ok v =>
      rw [hverb, Outcome.ok_bind] at h
      have rest : GrammarFault (Grammar.body text.toList ts.tail v >>= fun r =>
          Grammar.finish r.2 >>= fun _ => pure r.1) :=
        .bind (grammarFault_of_nameFault (Grammar.body_fault _ _ v)) fun r =>
          .bind (grammarFault_of_syntaxFault (Grammar.finish_fault r.2)) fun _ => .ok _
      exact .inl (rest fault h)

end Sql

end TableStore
