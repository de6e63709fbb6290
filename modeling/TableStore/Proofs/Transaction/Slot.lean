import TableStore.Transaction
import TableStore.Proofs.Outcome

/-! What the operations of a transaction slot need, and what they make of it. -/
namespace TableStore.Slot

open TableStore.Sql

variable {s s' : Slot} {id : Nat} {t : Transaction} {c : Command} {text : String}

theorem find_eq_ok : s.find id = .ok t ↔ s.current = some t ∧ t.id = id := by
  unfold find
  cases hc : s.current with
  | none => simp
  | some u =>
    simp only [Option.some.injEq]
    by_cases h : u.id = id
    · rw [if_pos h]
      constructor
      · rintro ⟨⟩
        exact ⟨rfl, h⟩
      · rintro ⟨rfl, -⟩
        rfl
    · rw [if_neg h]
      constructor
      · nofun
      · rintro ⟨rfl, h'⟩
        exact absurd h' h

theorem find_of_ne (h : s.current.map Transaction.id ≠ some id) :
    s.find id = .error (.transactionNotFound id) := by
  unfold find
  cases hc : s.current with
  | none => rfl
  | some t =>
    rw [hc] at h
    exact if_neg fun hid => h (congrArg some hid)

theorem begin?_eq_some {p : Nat × Slot} : s.begin? = some p ↔
    s.current = none ∧ p = (s.nextId, ⟨some ⟨s.nextId, []⟩, s.nextId + 1⟩) := by
  unfold begin?
  cases s.current <;> simp [eq_comm]

theorem enqueue_eq_ok : s.enqueue id c = .ok s' ↔ ∃ t, s.current = some t ∧ t.id = id ∧
    c.isReadOnly = false ∧ { s with current := some { t with queue := t.queue ++ [c] } } = s' := by
  unfold enqueue
  rw [Outcome.bind_eq_ok]
  simp only [find_eq_ok, and_assoc]
  cases c.isReadOnly with
  | false => simp only [Bool.false_eq_true, if_false, Outcome.pure_eq_ok, true_and]
  | true => simp

/-- The text is read only once the transaction is found. -/
theorem exec_eq_ok : s.exec id text = .ok s' ↔
    ∃ c, Command.read text = .ok c ∧ s.enqueue id c = .ok s' := by
  unfold exec
  simp only [Outcome.bind_eq_ok, find_eq_ok]
  constructor
  · rintro ⟨-, -, c, hc, h⟩
    exact ⟨c, hc, h⟩
  · rintro ⟨c, hc, h⟩
    obtain ⟨t, ht, hid, -⟩ := enqueue_eq_ok.mp h
    exact ⟨t, ⟨ht, hid⟩, c, hc, h⟩

theorem take_eq_ok {p : Transaction × Slot} : s.take id = .ok p ↔
    ∃ t, s.current = some t ∧ t.id = id ∧ (t, { s with current := none }) = p := by
  unfold take
  rw [Outcome.bind_eq_ok]
  simp only [find_eq_ok, and_assoc, Outcome.pure_eq_ok]

end TableStore.Slot
