import TableStore.Proofs.Database.Exclusive

/-! A guard and the slot behind it. Calls that name an id can free the slot and let others take
it while the guard is held, but no id is given twice: ending the guard ends the transaction that
it opened, or nothing. -/
namespace TableStore

/-- A transaction was begun, and is over. -/
def Slot.Closed (s : Slot) (id : Nat) : Prop :=
  id < s.nextId ∧ s.current.map Transaction.id ≠ some id

namespace SlotStep

variable {s s' : Slot} {e : Exchange} {id : Nat}

theorem nextId_le (h : SlotStep s e s') : s.nextId ≤ s'.nextId := by
  cases h with
  | quiet same next => exact Nat.le_of_eq next.symm
  | begun => exact Nat.le_succ _
  | ended => exact Nat.le_refl _
  | passed => exact Nat.le_succ _

/-- The next transaction has another id than all that were begun. -/
theorem closed (h : SlotStep s e s') (hclosed : s.Closed id) : s'.Closed id := by
  refine ⟨Nat.lt_of_lt_of_le hclosed.1 h.nextId_le, ?_⟩
  cases h with
  | quiet same =>
    rw [same]
    exact hclosed.2
  | begun =>
    intro hnew
    exact Nat.ne_of_gt hclosed.1 (Option.some.inj hnew)
  | ended => nofun
  | passed => nofun

/-- An open transaction stays open through every call that does not end it. -/
theorem stays (h : SlotStep s e s') (hopen : s.current.map Transaction.id = some id)
    (hother : e.call.ends? ≠ some id) : s'.current.map Transaction.id = some id := by
  cases h with
  | quiet same => exact same.trans hopen
  | begun free =>
    rw [free] at hopen
    cases hopen
  | ended taken _ ends =>
    rw [taken] at hopen
    exact absurd (ends.trans hopen) hother
  | passed free =>
    rw [free] at hopen
    cases hopen

end SlotStep

namespace Session

variable {s : Session} {id : Nat} {guard : Guard}

theorem nextId_le_run (s : Session) (calls : List Call) :
    s.db.slot.nextId ≤ (s.run calls).db.slot.nextId := by
  induction calls generalizing s with
  | nil => exact Nat.le_refl _
  | cons call calls ih => exact Nat.le_trans (s.db.slotStep call).nextId_le (ih (s.step call))

theorem closed_run (h : s.db.slot.Closed id) (calls : List Call) :
    (s.run calls).db.slot.Closed id := by
  induction calls generalizing s with
  | nil => exact h
  | cons call calls ih => exact ih ((s.db.slotStep call).closed h)

theorem closed_step (hbegun : id < s.db.slot.nextId) {call : Call} (hends : call.ends? = some id) :
    (s.step call).db.slot.Closed id := by
  by_cases hopen : s.db.active? = some id
  · have hslot : (s.step call).db.slot = { s.db.slot with current := none } :=
      Database.slot_serve_of_ends hends hopen
    rw [hslot]
    exact ⟨hbegun, nofun⟩
  · exact (s.db.slotStep call).closed ⟨hbegun, hopen⟩

/-- A transaction is open as long as no call has ended it. -/
theorem active?_run_iff (hbegun : id < s.db.slot.nextId) (hopen : s.db.active? = some id)
    (calls : List Call) :
    (s.run calls).db.active? = some id ↔ ∀ call ∈ calls, call.ends? ≠ some id := by
  induction calls generalizing s with
  | nil => exact iff_of_true hopen (List.forall_mem_nil _)
  | cons call calls ih =>
    rw [List.forall_mem_cons]
    by_cases hends : call.ends? = some id
    · have hclosed := closed_run (closed_step hbegun hends) calls
      exact iff_of_false hclosed.2 fun h => h.1 hends
    · have hstep := s.db.slotStep call
      have hbegun' : id < (s.step call).db.slot.nextId :=
        Nat.lt_of_lt_of_le hbegun hstep.nextId_le
      have hrest := ih hbegun' (hstep.stays hopen hends)
      exact hrest.trans (and_iff_right hends).symm

theorem current_openGuard (h : (s.db.serve .openGuard).1 = .opened guard) :
    (s.step .openGuard).db.slot.current = some ⟨guard.id, []⟩ ∧
      guard.id < (s.step .openGuard).db.slot.nextId := by
  simp only [step]
  simp only [Database.serve, Guard.open?] at h ⊢
  cases hbegin : s.db.begin? with
  | none =>
    rw [hbegin] at h
    cases h
  | some p =>
    obtain ⟨-, rfl⟩ := Database.begin?_eq_some.mp hbegin
    rw [hbegin] at h
    cases h
    exact ⟨rfl, Nat.lt_succ_self _⟩

end Session

/-- The calls by which the holder of a guard can end it. -/
def Guard.endings (g : Guard) : List Call :=
  [.guardCommit g, .guardRollback g, .guardDrop g]

theorem Guard.ends?_of_mem_endings {g : Guard} {call : Call} (h : call ∈ g.endings) :
    call.ends? = some g.id := by
  simp only [endings, List.mem_cons, List.not_mem_nil, or_false] at h
  rcases h with rfl | rfl | rfl <;> rfl

/-- What ending a guard does. While its transaction is open, that is committed or given up, with
the commands that it was given; else nothing happens, whatever the slot holds by then. The
transaction is over then and stays so, and a guard that was ended has nothing more to end. -/
structure Guard.EndsOwn (g : Guard) (s : Session) : Prop where
  committed : s.db.active? = some g.id →
    s.db.serve (.guardCommit g) = ((runQueue s.db.root [] (s.ledger.queue g.id)).map
      (.ofOutcome .committed) fun root => ⟨root, { s.db.slot with current := none }⟩)
  givenUp : s.db.active? = some g.id →
    s.db.serve (.guardRollback g) = (.done, ⟨s.db.root, { s.db.slot with current := none }⟩) ∧
    s.db.serve (.guardDrop g) = (.done, ⟨s.db.root, { s.db.slot with current := none }⟩)
  refused : s.db.active? ≠ some g.id →
    s.db.serve (.guardCommit g) = (.refused (.transactionNotFound g.id), s.db) ∧
    s.db.serve (.guardRollback g) = (.refused (.transactionNotFound g.id), s.db) ∧
    s.db.serve (.guardDrop g) = (.done, s.db)
  files : (s.db.serve (.guardDrop g)).2.root = s.db.root
  ended : ∀ ending ∈ g.endings, ∀ later, ((s.step ending).run later).db.active? ≠ some g.id
  again : ∀ ending ∈ g.endings, ∀ later,
    ((s.step ending).run later).db.serve (.guardDrop g) = (.done, ((s.step ending).run later).db)

namespace Guard

variable {g : Guard} {s : Session}

theorem serve_committed (hagrees : s.ledger.Agrees s.db.slot) (hopen : s.db.active? = some g.id) :
    s.db.serve (.guardCommit g) = ((runQueue s.db.root [] (s.ledger.queue g.id)).map
      (.ofOutcome .committed) fun root => ⟨root, { s.db.slot with current := none }⟩) := by
  obtain ⟨t, ht, hid⟩ := Option.map_eq_some_iff.mp hopen
  have hcommit := Database.commit_eq ht
  rw [hagrees.queue t ht, hid] at hcommit
  simp only [Database.serve, commit, hcommit]
  rfl

theorem serve_givenUp (hopen : s.db.active? = some g.id) :
    s.db.serve (.guardRollback g) = (.done, ⟨s.db.root, { s.db.slot with current := none }⟩) ∧
    s.db.serve (.guardDrop g) = (.done, ⟨s.db.root, { s.db.slot with current := none }⟩) := by
  obtain ⟨t, ht, hid⟩ := Option.map_eq_some_iff.mp hopen
  have htake := Slot.take_eq_ok.mpr ⟨t, ht, hid, rfl⟩
  simp only [Database.serve, rollback, drop, Database.abandon, Database.rollback, htake]
  exact ⟨rfl, rfl⟩

theorem serve_refused (hne : s.db.active? ≠ some g.id) :
    s.db.serve (.guardCommit g) = (.refused (.transactionNotFound g.id), s.db) ∧
    s.db.serve (.guardRollback g) = (.refused (.transactionNotFound g.id), s.db) ∧
    s.db.serve (.guardDrop g) = (.done, s.db) :=
  ⟨Database.serve_of_ne rfl hne, Database.serve_of_ne rfl hne, Database.serve_guardDrop_of_ne hne⟩

/-- A guard of a transaction that was begun ends that one, however the session went on. -/
theorem endsOwn (hagrees : s.ledger.Agrees s.db.slot) (hbegun : g.id < s.db.slot.nextId) :
    g.EndsOwn s := by
  have hended : ∀ ending ∈ g.endings, ∀ later,
      ((s.step ending).run later).db.active? ≠ some g.id := by
    intro ending hmem later
    exact (Session.closed_run (Session.closed_step hbegun (ends?_of_mem_endings hmem)) later).2
  refine ⟨serve_committed hagrees, serve_givenUp, serve_refused, ?_, hended, fun ending hmem later =>
    Database.serve_guardDrop_of_ne (hended ending hmem later)⟩
  by_cases hopen : s.db.active? = some g.id
  · rw [(serve_givenUp hopen).2]
  · rw [(serve_refused hopen).2.2]

end Guard

namespace Session

/-- A guard is opened with a transaction and a queue of its own. Whatever is called while it is
held, that transaction is open exactly as long as no call has ended it, and ending the guard ends
that transaction and no other. -/
theorem guard_ends_own (root : Root) (before during : List Call) (guard : Guard)
    (hopened : (((start root).run before).db.serve .openGuard).1 = .opened guard) :
    let opened := ((start root).run before).step .openGuard
    let held := opened.run during
    opened.ledger.queue guard.id = [] ∧
      (held.db.active? = some guard.id ↔ ∀ call ∈ during, call.ends? ≠ some guard.id) ∧
      guard.EndsOwn held := by
  intro opened held
  obtain ⟨hcurrent, hbegun⟩ := current_openGuard hopened
  have hserial : Serial root opened := (serial_run (serial_start root) before).step .openGuard
  refine ⟨(hserial.agrees.queue _ hcurrent).symm, ?_, ?_⟩
  · exact active?_run_iff hbegun (congrArg (Option.map Transaction.id) hcurrent) during
  · have hbegun' : guard.id < held.db.slot.nextId :=
      Nat.lt_of_lt_of_le hbegun (nextId_le_run opened during)
    exact Guard.endsOwn (serial_run hserial during).agrees hbegun'

/-- The guard's transaction is rolled back by its id behind it, and the next one gets a queue. -/
theorem guard_ends_own_replaced :
    let before := (start ⟨"db", .nothing⟩).run [.begin, .rollback 1]
    let during : List Call := [.guardExec ⟨2⟩ "DELETE FROM t", .rollback 2, .tryBegin,
      .exec 3 "CREATE TABLE t (a) WITH TYPES (int64)"]
    let held := (before.step .openGuard).run during
    (before.db.serve .openGuard).1 = .opened ⟨2⟩ ∧
      held.db.slot.current = some ⟨3, [.create "t" ["a"] ["int64"]]⟩ ∧
      held.db.serve (.guardCommit ⟨2⟩) = (.refused (.transactionNotFound 2), held.db) ∧
      held.db.serve (.guardDrop ⟨2⟩) = (.done, held.db) := by
  intro before during held
  have hcurrent : held.db.slot.current = some ⟨3, [.create "t" ["a"] ["int64"]]⟩ := by
    decide +kernel
  have hother : held.db.active? ≠ some 2 := by
    unfold Database.active?
    rw [hcurrent]
    decide
  obtain ⟨-, -, hends⟩ := guard_ends_own ⟨"db", .nothing⟩ [.begin, .rollback 1] during ⟨2⟩ rfl
  obtain ⟨hcommit, -, hdrop⟩ := hends.refused hother
  exact ⟨rfl, hcurrent, hcommit, hdrop⟩

end Session

end TableStore
