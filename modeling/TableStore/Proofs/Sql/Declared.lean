import TableStore.Sql.Grammar
import TableStore.Proofs.Outcome

/-! What a read statement declares. Lists of names are never empty, and only a
statement that makes a table has the verb for it. -/
namespace TableStore.Sql

namespace Grammar

variable {what : String} {ts rest : List Spanned} {ws : List String} {s : Statement}
  {text : List Char}

theorem words_ne_nil (h : words what ts = .ok (ws, rest)) : ws ≠ [] := by
  unfold words at h
  split at h
  · obtain ⟨p, -, h⟩ := Outcome.bind_eq_ok.mp h
    cases h
    nofun
  · cases h
    nofun
  · cases h

theorem wordGroup_ne_nil (h : wordGroup what ts = .ok (ws, rest)) : ws ≠ [] := by
  obtain ⟨_, -, h⟩ := Outcome.bind_eq_ok.mp h
  obtain ⟨⟨_, _⟩, hw, h⟩ := Outcome.bind_eq_ok.mp h
  obtain ⟨_, -, h⟩ := Outcome.bind_eq_ok.mp h
  cases h
  exact words_ne_nil hw

theorem columns_create (h : create ts = .ok (s, rest)) : s.columns ≠ [] := by
  obtain ⟨_, -, h⟩ := Outcome.bind_eq_ok.mp h
  obtain ⟨⟨_, _⟩, -, h⟩ := Outcome.bind_eq_ok.mp h
  obtain ⟨⟨_, _⟩, hcolumns, h⟩ := Outcome.bind_eq_ok.mp h
  obtain ⟨_, -, h⟩ := Outcome.bind_eq_ok.mp h
  obtain ⟨_, -, h⟩ := Outcome.bind_eq_ok.mp h
  obtain ⟨⟨_, _⟩, -, h⟩ := Outcome.bind_eq_ok.mp h
  cases h
  exact wordGroup_ne_nil hcolumns

theorem verb_insert (h : insert text ts = .ok (s, rest)) : s.verb = .insert := by
  obtain ⟨_, -, h⟩ := Outcome.bind_eq_ok.mp h
  obtain ⟨⟨_, _⟩, -, h⟩ := Outcome.bind_eq_ok.mp h
  obtain ⟨⟨_, _⟩, -, h⟩ := Outcome.bind_eq_ok.mp h
  obtain ⟨_, -, h⟩ := Outcome.bind_eq_ok.mp h
  obtain ⟨⟨_, _⟩, -, h⟩ := Outcome.bind_eq_ok.mp h
  cases h
  rfl

theorem verb_select (h : select ts = .ok (s, rest)) : s.verb = .select := by
  obtain ⟨⟨_, _⟩, -, h⟩ := Outcome.bind_eq_ok.mp h
  obtain ⟨_, -, h⟩ := Outcome.bind_eq_ok.mp h
  obtain ⟨⟨_, _⟩, -, h⟩ := Outcome.bind_eq_ok.mp h
  obtain ⟨⟨_, _⟩, -, h⟩ := Outcome.bind_eq_ok.mp h
  obtain ⟨⟨_, _⟩, -, h⟩ := Outcome.bind_eq_ok.mp h
  cases h
  rfl

theorem verb_update (h : update ts = .ok (s, rest)) : s.verb = .update := by
  obtain ⟨⟨_, _⟩, -, h⟩ := Outcome.bind_eq_ok.mp h
  obtain ⟨_, -, h⟩ := Outcome.bind_eq_ok.mp h
  obtain ⟨⟨_, _⟩, -, h⟩ := Outcome.bind_eq_ok.mp h
  obtain ⟨⟨_, _⟩, -, h⟩ := Outcome.bind_eq_ok.mp h
  cases h
  rfl

theorem verb_delete (h : delete ts = .ok (s, rest)) : s.verb = .delete := by
  obtain ⟨_, -, h⟩ := Outcome.bind_eq_ok.mp h
  obtain ⟨⟨_, _⟩, -, h⟩ := Outcome.bind_eq_ok.mp h
  obtain ⟨⟨_, _⟩, -, h⟩ := Outcome.bind_eq_ok.mp h
  cases h
  rfl

end Grammar

theorem Statement.columns_of_create {text : String} {s : Statement}
    (h : Statement.read text = .ok s) (hv : s.verb = .create) : s.columns ≠ [] := by
  obtain ⟨ts, -, h⟩ := Outcome.bind_eq_ok.mp h
  obtain ⟨verb, -, h⟩ := Outcome.bind_eq_ok.mp h
  obtain ⟨⟨s', rest⟩, hbody, h⟩ := Outcome.bind_eq_ok.mp h
  obtain ⟨_, -, h⟩ := Outcome.bind_eq_ok.mp h
  cases h
  cases verb with
  | create => exact Grammar.columns_create hbody
  | insert => cases (Grammar.verb_insert hbody).symm.trans hv
  | select => cases (Grammar.verb_select hbody).symm.trans hv
  | update => cases (Grammar.verb_update hbody).symm.trans hv
  | delete => cases (Grammar.verb_delete hbody).symm.trans hv

end TableStore.Sql
