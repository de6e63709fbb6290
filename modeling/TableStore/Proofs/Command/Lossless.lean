import Mathlib.Data.Set.Function
import TableStore.Command
import TableStore.Proofs.Sql.Statement

/-! Statements and their commands. All statements have the same fields, and a command keeps only
those that its verb uses; the others hold nothing in a statement that was read, so that the
command still says all that the statement said. -/
namespace TableStore

namespace Sql

/-- What the fields of a statement hold, by its verb. -/
inductive Statement.Shaped : Statement → Prop
  | create (table : String) (columns types : List String) :
      Shaped { verb := .create, table, columns, groups := [types] }
  | insert (table : String) (columns : List String) (groups : List (List String)) :
      Shaped { verb := .insert, table, columns, groups }
  | select (table : String) (columns : List String) (condition : Option Condition)
      (order : Option String) : Shaped { verb := .select, table, columns, condition, order }
  | update (table : String) {columns values : List String}
      (paired : values.length = columns.length) (condition : Option Condition) :
      Shaped { verb := .update, table, columns, groups := [values], condition }
  | delete (table : String) (condition : Option Condition) :
      Shaped { verb := .delete, table, condition }

variable {text : List Char} {ts : List Spanned} {s : Statement}

/-- Every production fills the fields of its verb and no others. -/
theorem Production.shaped (h : Production text ts s) : s.Shaped := by
  cases h with
  | create => exact .create _ _ _
  | insert => exact .insert _ _ _
  | select => exact .select _ _ _ _
  | update => exact .update _ (by simp) _
  | delete => exact .delete _ _

theorem Statement.shaped_of_read {text : String} (h : Statement.read text = .ok s) :
    s.Shaped := by
  obtain ⟨_, _, -, -, produced⟩ := read_eq_ok.mp h
  exact produced.shaped

namespace Statement.Shaped

theorem exists_types (h : s.Shaped) (hv : s.verb = .create) : ∃ types, s.groups = [types] := by
  cases h with
  | create table columns types => exact ⟨types, rfl⟩
  | _ => cases hv

theorem exists_values (h : s.Shaped) (hv : s.verb = .update) :
    ∃ values, s.groups = [values] ∧ values.length = s.columns.length := by
  cases h with
  | update table paired condition => exact ⟨_, rfl, paired⟩
  | _ => cases hv

end Statement.Shaped

end Sql

open TableStore.Sql

namespace Command

def statement : Command → Statement
  | create table columns types => { verb := .create, table, columns, groups := [types] }
  | insert table columns groups => { verb := .insert, table, columns, groups }
  | select table columns condition order => { verb := .select, table, columns, condition, order }
  | update table assignments condition =>
    { verb := .update, table, columns := assignments.map Prod.fst,
      groups := [assignments.map Prod.snd], condition }
  | delete table condition => { verb := .delete, table, condition }

variable {s : Statement}

theorem ofStatement_of_create {types : List String} (hv : s.verb = .create)
    (hs : s.groups = [types]) : ofStatement s = create s.table s.columns types := by
  simp only [ofStatement, hv, hs, List.headD_cons]

theorem ofStatement_of_update {values : List String} (hv : s.verb = .update)
    (hs : s.groups = [values]) :
    ofStatement s = update s.table (s.columns.zip values) s.condition := by
  simp only [ofStatement, hv, hs, List.headD_cons]

/-- Of a statement whose fields are filled by its verb, its command loses nothing. -/
theorem statement_ofStatement (h : s.Shaped) : (ofStatement s).statement = s := by
  cases h with
  | update table paired condition =>
    simp only [ofStatement, statement, List.headD_cons, List.map_fst_zip paired.ge,
      List.map_snd_zip paired.le]
  | _ => rfl

/-- No two statements that were read have the same command. The one group of a creation are its
types and the one group of an update its values, one for each column, and the command has them
all; the whole statement can be told from it. -/
theorem ofStatement_lossless :
    Set.InjOn ofStatement {s | ∃ text, Statement.read text = .ok s} ∧
    ∀ text s, Statement.read text = .ok s →
      (ofStatement s).statement = s ∧
      (s.verb = .create → ∃ types, s.groups = [types] ∧
        ofStatement s = create s.table s.columns types) ∧
      (s.verb = .update → ∃ values assignments, s.groups = [values] ∧
        values.length = s.columns.length ∧
        ofStatement s = update s.table assignments s.condition ∧
        assignments.map Prod.fst = s.columns ∧ assignments.map Prod.snd = values) := by
  constructor
  · rintro s ⟨text, hs⟩ s' ⟨text', hs'⟩ heq
    calc s = (ofStatement s).statement := (statement_ofStatement (Statement.shaped_of_read hs)).symm
      _ = (ofStatement s').statement := congrArg statement heq
      _ = s' := statement_ofStatement (Statement.shaped_of_read hs')
  · intro text s hs
    have shaped := Statement.shaped_of_read hs
    refine ⟨statement_ofStatement shaped, fun hv => ?_, fun hv => ?_⟩
    · obtain ⟨types, hgroups⟩ := shaped.exists_types hv
      exact ⟨types, hgroups, ofStatement_of_create hv hgroups⟩
    · obtain ⟨values, hgroups, paired⟩ := shaped.exists_values hv
      exact ⟨values, _, hgroups, paired, ofStatement_of_update hv hgroups,
        List.map_fst_zip paired.ge, List.map_snd_zip paired.le⟩

/-- Two updates that differ in one value only, and a column that is assigned twice. -/
theorem ofStatement_lossless_update :
    let s : Statement :=
      { verb := .update, table := "t", columns := ["a", "b", "a"],
        groups := [["1", "it's", ""]], condition := some ⟨"c", .gt, "2"⟩ }
    let s' : Statement := { s with groups := [["1", "it's", "1"]] }
    Statement.read "Update t SET a = 1, b='it''s', a = '' WHERE c > 2;" = .ok s ∧
      Statement.read "UPDATE t SET a=1,b='it''s',a=1 WHERE c>'2'" = .ok s' ∧
      ofStatement s ≠ ofStatement s' ∧ (ofStatement s).statement = s ∧
      ∃ assignments, ofStatement s = update "t" assignments (some ⟨"c", .gt, "2"⟩) ∧
        assignments.map Prod.fst = ["a", "b", "a"] ∧
        assignments.map Prod.snd = ["1", "it's", ""] := by
  intro s s'
  have hs : Statement.read "Update t SET a = 1, b='it''s', a = '' WHERE c > 2;" = .ok s :=
    Outcome.toOption_eq_some.mp (by decide +kernel)
  have hs' : Statement.read "UPDATE t SET a=1,b='it''s',a=1 WHERE c>'2'" = .ok s' :=
    Outcome.toOption_eq_some.mp (by decide +kernel)
  have differ : s ≠ s' := by decide
  obtain ⟨whole, -, updated⟩ := ofStatement_lossless.2 _ s hs
  obtain ⟨_, assignments, hvalues, -, hcommand, hcolumns, rfl⟩ := updated rfl
  refine ⟨hs, hs', fun heq => differ ?_, whole, assignments, hcommand, hcolumns, ?_⟩
  · exact ofStatement_lossless.1 ⟨_, hs⟩ ⟨_, hs'⟩ heq
  · exact (List.singleton_inj.mp hvalues).symm

end Command

end TableStore
