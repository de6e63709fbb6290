import TableStore.Proofs.Transaction.Commit
import TableStore.Proofs.Transaction.Slot

/-! Transactions of one command: opened in a free slot, given the command and committed at
once, or given up. -/
namespace TableStore

/-- The slot while a transaction that was opened in it has this queue. -/
def Slot.opened (s : Slot) (queue : List Command) : Slot :=
  ⟨some ⟨s.nextId, queue⟩, s.nextId + 1⟩

/-- The slot after a transaction of its own. -/
def Slot.passed (s : Slot) : Slot :=
  ⟨none, s.nextId + 1⟩

namespace Database

variable {db db' : Database} {root : Root} {slot : Slot} {text : String} {c : Command}

theorem begin?_eq_some {p : Nat × Database} : db.begin? = some p ↔
    db.slot.current = none ∧ p = (db.slot.nextId, ⟨db.root, db.slot.opened []⟩) := by
  unfold begin?
  rw [Option.map_eq_some_iff]
  simp only [Slot.begin?_eq_some]
  constructor
  · rintro ⟨-, ⟨hfree, rfl⟩, rfl⟩
    exact ⟨hfree, rfl⟩
  · rintro ⟨hfree, rfl⟩
    exact ⟨_, ⟨hfree, rfl⟩, rfl⟩

theorem enqueue_opened_eq_ok : enqueue ⟨root, slot.opened []⟩ slot.nextId c = .ok db' ↔
    c.isReadOnly = false ∧ db' = ⟨root, slot.opened [c]⟩ := by
  unfold enqueue
  rw [Outcome.map_eq_ok]
  simp only [Slot.enqueue_eq_ok]
  constructor
  · rintro ⟨-, ⟨t, ht, -, hc, rfl⟩, rfl⟩
    cases ht
    exact ⟨hc, rfl⟩
  · rintro ⟨hc, rfl⟩
    exact ⟨_, ⟨_, rfl, rfl, hc, rfl⟩, rfl⟩

theorem exec_opened_eq_ok : exec ⟨root, slot.opened []⟩ slot.nextId text = .ok db' ↔
    ∃ c, Command.read text = .ok c ∧ c.isReadOnly = false ∧
      db' = ⟨root, slot.opened [c]⟩ := by
  unfold exec
  rw [Outcome.map_eq_ok]
  simp only [Slot.exec_eq_ok]
  constructor
  · rintro ⟨s, ⟨c, hread, hs⟩, rfl⟩
    exact ⟨c, hread, enqueue_opened_eq_ok.mp (Outcome.map_eq_ok.mpr ⟨s, hs, rfl⟩)⟩
  · rintro ⟨c, hread, hc⟩
    obtain ⟨s, hs, hdb⟩ := Outcome.map_eq_ok.mp (enqueue_opened_eq_ok.mpr hc)
    exact ⟨s, ⟨c, hread, hs⟩, hdb⟩

theorem commit_opened (root : Root) (slot : Slot) (queue : List Command) :
    commit ⟨root, slot.opened queue⟩ slot.nextId =
      ((runQueue root [] queue).1, ⟨(runQueue root [] queue).2, slot.passed⟩) := by
  let db : Database := ⟨root, slot.opened queue⟩
  have current : db.slot.current = some ⟨slot.nextId, queue⟩ := rfl
  exact commit_eq current

theorem abandon_opened (root : Root) (slot : Slot) (queue : List Command) :
    abandon ⟨root, slot.opened queue⟩ slot.nextId = ⟨root, slot.passed⟩ := by
  have htake : (slot.opened queue).take slot.nextId = .ok (⟨slot.nextId, queue⟩, slot.passed) :=
    Slot.take_eq_ok.mpr ⟨⟨slot.nextId, queue⟩, rfl, rfl, rfl⟩
  unfold abandon rollback
  rw [htake]
  rfl

theorem execute?_eq_none : db.execute? text = none ↔ db.slot.current ≠ none := by
  unfold execute? transact? begin? Slot.begin?
  cases db.slot.current <;> simp

theorem free_of_execute? {p : Except Fault Answer × Database} (h : db.execute? text = some p) :
    db.slot.current = none := by
  by_contra taken
  rw [execute?_eq_none.mpr taken] at h
  cases h

theorem execute?_of_read_error {fault : Fault} (h : db.slot.current = none)
    (hread : Command.read text = .error fault) :
    db.execute? text = some (.error fault, ⟨db.root, db.slot.passed⟩) := by
  unfold execute? transact?
  rw [begin?_eq_some.mpr ⟨h, rfl⟩, hread]
  simp only [Option.map_some, Except.bind, abandon_opened]

/-- A statement of its own fails and changes nothing, and certainly if its text does not
stand for a change, or it is a queue of one command. -/
theorem execute?_cases (h : db.slot.current = none) (text : String) :
    ((∀ c, Command.read text = .ok c → c.isReadOnly = true) ∧
      ∃ fault, db.execute? text = some (.error fault, ⟨db.root, db.slot.passed⟩)) ∨
      ∃ c, Command.read text = .ok c ∧ c.isReadOnly = false ∧ db.execute? text =
        some ((runQueue db.root [] [c]).1.map (·.getLastD {}),
          ⟨(runQueue db.root [] [c]).2, db.slot.passed⟩) := by
  cases hc : Command.read text with
  | error fault => exact .inl ⟨nofun, fault, execute?_of_read_error h hc⟩
  | ok c =>
    unfold execute? transact?
    rw [begin?_eq_some.mpr ⟨h, rfl⟩, hc]
    simp only [Option.map_some, Except.bind]
    cases he : enqueue ⟨db.root, db.slot.opened []⟩ db.slot.nextId c with
    | error fault =>
      refine .inl ⟨?_, fault, by simp only [abandon_opened]⟩
      rintro _ ⟨⟩
      by_contra hw
      rw [enqueue_opened_eq_ok.mpr ⟨Bool.eq_false_iff.mpr hw, rfl⟩] at he
      cases he
    | ok queued =>
      obtain ⟨hw, rfl⟩ := enqueue_opened_eq_ok.mp he
      refine .inr ⟨c, rfl, hw, ?_⟩
      simp only [commit_opened]
      cases (runQueue db.root [] [c]).1 <;> rfl

theorem execute?_of_effect {answer : Answer} {written : Option ByteArray}
    (free : db.slot.current = none) (hread : Command.read text = .ok c)
    (hc : c.isReadOnly = false) (heffect : c.effect db.root = .ok (answer, written)) :
    db.execute? text =
      some (.ok answer, ⟨db.root.overwritten (tableFile c.table) written, db.slot.passed⟩) := by
  have hqueue := runQueue_single.mpr ⟨answer, written, heffect, rfl, rfl⟩
  rcases execute?_cases free text with ⟨hreading, -⟩ | ⟨c', hread', -, hexecute⟩
  · rw [hreading c hread] at hc
    cases hc
  · cases hread.symm.trans hread'
    rw [hexecute, hqueue]
    rfl

end Database

end TableStore
