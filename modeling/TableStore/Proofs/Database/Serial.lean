import TableStore.Proofs.Database.Reading
import TableStore.Proofs.Database.Single

/-! Every run is serial: at any point the files are those of the start after the queues
committed so far, one after another. What is queued is seen by nobody. -/
namespace TableStore

open TableStore.Text TableStore.Sql

namespace Ledger

variable {l : Ledger} {s s' : Slot} {id : Nat} {text : String}

/-- The clients know what the open transaction has queued, and that no transaction with a
later id has queued anything. -/
structure Agrees (l : Ledger) (s : Slot) : Prop where
  queue : ∀ t, s.current = some t → t.queue = l.queue t.id
  below : ∀ t, s.current = some t → t.id < s.nextId
  fresh : ∀ id, s.nextId ≤ id → l.queue id = []

theorem Agrees.begun (h : l.Agrees s) : l.Agrees ⟨some ⟨s.nextId, []⟩, s.nextId + 1⟩ := by
  refine ⟨?_, ?_, fun id hid => h.fresh id (by simp only at hid; omega)⟩
  · rintro t ⟨⟩
    exact (h.fresh _ (Nat.le_refl _)).symm
  · rintro t ⟨⟩
    exact Nat.lt_succ_self _

theorem Agrees.freed (h : l.Agrees s) : l.Agrees { s with current := none } :=
  ⟨nofun, nofun, h.fresh⟩

theorem Agrees.passed (h : l.Agrees s) : l.Agrees s.passed :=
  h.begun.freed

theorem Agrees.queued (h : l.Agrees s) (he : s.exec id text = .ok s') :
    (l.queued id text).Agrees s' := by
  obtain ⟨c, hc, he⟩ := Slot.exec_eq_ok.mp he
  obtain ⟨t, ht, rfl, -, rfl⟩ := Slot.enqueue_eq_ok.mp he
  unfold queued
  rw [hc]
  refine ⟨?_, ?_, ?_⟩
  · rintro u ⟨⟩
    simp [h.queue t ht]
  · rintro u ⟨⟩
    exact h.below t ht
  · intro other ho
    have hne : other ≠ t.id := by
      have := h.below t ht
      simp only at ho
      omega
    simp only [Function.update_of_ne hne]
    exact h.fresh other ho

end Ledger

/-- The root after some queues ran, one after another. -/
def serially (root : Root) (queues : List (List Command)) : Root :=
  queues.foldl (fun root queue => (runAll root queue).2) root

namespace Session

variable {s : Session}

/-- A step that commits nothing and leaves every file as it was. -/
structure Quiet (s s' : Session) : Prop where
  agrees : s'.ledger.Agrees s'.db.slot
  committed : s'.ledger.committed = s.ledger.committed
  files : s'.db.root.SameEntries s.db.root

/-- A step that commits one queue, which ran to its end. -/
structure Commits (s s' : Session) (queue : List Command) : Prop where
  agrees : s'.ledger.Agrees s'.db.slot
  committed : s'.ledger.committed = s.ledger.committed ++ [queue]
  ran : (runAll s.db.root queue).2 = s'.db.root

theorem quiet_exec (h : s.ledger.Agrees s.db.slot) (id : Nat) (text : String) :
    Quiet s (s.step (.exec id text)) := by
  simp only [step, Database.serve]
  cases he : s.db.exec id text with
  | error fault => exact ⟨h, rfl, Root.SameEntries.refl _⟩
  | ok db =>
    obtain ⟨slot, hslot, rfl⟩ := Outcome.map_eq_ok.mp he
    refine ⟨h.queued hslot, ?_, Root.SameEntries.refl _⟩
    show (s.ledger.queued id text).committed = _
    unfold Ledger.queued
    cases Command.read text <;> rfl

theorem quiet_slot {slot : Slot} (h : s.ledger.Agrees slot) :
    Quiet s ⟨⟨s.db.root, slot⟩, s.ledger⟩ :=
  ⟨h, rfl, Root.SameEntries.refl _⟩

theorem quiet_begin (h : s.ledger.Agrees s.db.slot) : Quiet s (s.step .begin) := by
  simp only [step, Database.serve, Database.begin?]
  cases hb : s.db.slot.begin? with
  | none => exact quiet_slot h
  | some p =>
    obtain ⟨-, rfl⟩ := Slot.begin?_eq_some.mp hb
    exact quiet_slot h.begun

theorem quiet_rollback (h : s.ledger.Agrees s.db.slot) (id : Nat) :
    Quiet s (s.step (.rollback id)) := by
  simp only [step, Database.serve, Database.rollback]
  cases ht : s.db.slot.take id with
  | error fault => exact quiet_slot h
  | ok p =>
    obtain ⟨t, -, -, rfl⟩ := Slot.take_eq_ok.mp ht
    exact quiet_slot h.freed

theorem step_commit (h : s.ledger.Agrees s.db.slot) (id : Nat) :
    Quiet s (s.step (.commit id)) ∨ ∃ queue, Commits s (s.step (.commit id)) queue := by
  simp only [step, Database.serve]
  cases ht : s.db.slot.take id with
  | error fault =>
    have hc : s.db.commit id = (.error fault, s.db) := by
      unfold Database.commit
      rw [ht]
    rw [hc]
    exact .inl (quiet_slot h)
  | ok p =>
    obtain ⟨t, hcurrent, rfl, rfl⟩ := Slot.take_eq_ok.mp ht
    rw [Database.commit_eq hcurrent, h.queue t hcurrent]
    cases hr : runQueue s.db.root [] (s.ledger.queue t.id) with
    | mk outcome after =>
      cases outcome with
      | error fault => exact .inl ⟨h.freed, rfl, sameEntries_of_runQueue_error hr⟩
      | ok answers =>
        refine .inr ⟨_, ⟨h.freed.queue, h.freed.below, h.freed.fresh⟩, rfl, ?_⟩
        rw [runAll_of_runQueue_ok hr]
        rfl

theorem step_execute (h : s.ledger.Agrees s.db.slot) (text : String) :
    Quiet s (s.step (.execute text)) ∨ ∃ queue, Commits s (s.step (.execute text)) queue := by
  simp only [step, Database.serve]
  cases hcurrent : s.db.slot.current with
  | some t =>
    have waits : s.db.execute? text = none := by
      rw [Database.execute?_eq_none, hcurrent]
      exact Option.some_ne_none t
    rw [waits]
    exact .inl (quiet_slot h)
  | none =>
    rcases Database.execute?_cases hcurrent text with ⟨-, fault, he⟩ | ⟨c, hc, -, he⟩
    · rw [he]
      exact .inl (quiet_slot h.passed)
    · rw [he]
      cases hr : runQueue s.db.root [] [c] with
      | mk outcome after =>
        cases outcome with
        | error fault => exact .inl ⟨h.passed, rfl, sameEntries_of_runQueue_error hr⟩
        | ok answers =>
          have entered : s.ledger.enter (.execute text) (.answer (answers.getLastD {})) =
              { s.ledger with committed := s.ledger.committed ++ [[c]] } := by
            simp only [Ledger.enter, hc]
          refine .inr ⟨[c], ?_⟩
          show Commits s ⟨_, s.ledger.enter (.execute text) (.answer (answers.getLastD {}))⟩ [c]
          rw [entered]
          refine ⟨⟨h.passed.queue, h.passed.below, h.passed.fresh⟩, rfl, ?_⟩
          rw [runAll_of_runQueue_ok hr]

/-- Every call is quiet, or it commits one queue. -/
theorem step_cases (h : s.ledger.Agrees s.db.slot) (call : Call) :
    Quiet s (s.step call) ∨ ∃ queue, Commits s (s.step call) queue := by
  have quiet : Quiet s s := quiet_slot h
  rw [← step_plain]
  cases call with
  | begin => exact .inl (quiet_begin h)
  | openGuard => exact .inl (quiet_begin h)
  | tryBegin => exact .inl (quiet_begin h)
  | exec id text => exact .inl (quiet_exec h id text)
  | guardExec guard text => exact .inl (quiet_exec h guard.id text)
  | commit id => exact step_commit h id
  | guardCommit guard => exact step_commit h guard.id
  | rollback id => exact .inl (quiet_rollback h id)
  | guardRollback guard => exact .inl (quiet_rollback h guard.id)
  | guardDrop guard => exact .inl (quiet_rollback h guard.id)
  | execute text => exact step_execute h text
  | _ => exact .inl quiet

/-- The files are those of a serial run of what is committed. -/
structure Serial (root : Root) (s : Session) : Prop where
  agrees : s.ledger.Agrees s.db.slot
  files : s.db.root.SameEntries (serially root s.ledger.committed)

theorem Serial.step {root : Root} (h : Serial root s) (call : Call) :
    Serial root (s.step call) := by
  rcases step_cases h.agrees call with hq | ⟨queue, hc⟩
  · refine ⟨hq.agrees, ?_⟩
    rw [hq.committed]
    exact hq.files.trans h.files
  · refine ⟨hc.agrees, ?_⟩
    -- The queue ran on files that are those of the serial run, so it did the same there.
    unfold serially
    rw [hc.committed, List.foldl_append, ← hc.ran]
    exact (runAll_congr h.files queue).2

theorem serial_run {root : Root} (h : Serial root s) (calls : List Call) :
    Serial root (s.run calls) := by
  induction calls generalizing s with
  | nil => exact h
  | cons call calls ih => exact ih (h.step call)

def start (root : Root) : Session :=
  ⟨⟨root, {}⟩, {}⟩

theorem serial_start (root : Root) : Serial root (start root) :=
  ⟨⟨nofun, nofun, fun _ _ => rfl⟩, Root.SameEntries.refl root⟩

/-- At any point of any run the files are those of the start after the committed queues;
a step that commits nothing leaves every file alone; and calls that read answer as if
nothing but the committed queues had ever been. -/
theorem run_is_serial (root : Root) (calls : List Call) :
    let s := (start root).run calls
    s.db.root.SameEntries (serially root s.ledger.committed) ∧
      ∀ call, ((s.step call).ledger.committed = s.ledger.committed →
          (s.step call).db.root.SameEntries s.db.root) ∧
        (call.isReading = true → (s.db.serve call).1 =
          (Database.serve ⟨serially root s.ledger.committed, {}⟩ call).1) := by
  intro s
  have h : Serial root s := serial_run (serial_start root) calls
  refine ⟨h.files, fun call => ⟨?_, Database.serve_congr h.files⟩⟩
  intro hsame
  rcases step_cases h.agrees call with hq | ⟨queue, hc⟩
  · exact hq.files
  · rw [hc.committed] at hsame
    simp at hsame

end Session

end TableStore
