import TableStore.Proofs.Database.Calls
import TableStore.Proofs.Database.Single

/-! Properties of roots that hold at any point. It is enough that commands of a kind keep
them: queues of such commands do, whether they run to their end or are undone, and so do
all calls that give no other commands. -/
namespace TableStore

open TableStore.Text TableStore.Sql

/-- A property of what a root holds, which commands of a kind keep. -/
structure Root.Kept (Good : Root → Prop) (Allowed : Command → Prop) : Prop where
  congr : ∀ {r s : Root}, Good r → s.SameEntries r → Good s
  run : ∀ {r : Root} {c : Command}, Good r → Allowed c → Good (c.run r).2

variable {Good : Root → Prop} {Allowed : Command → Prop}

theorem Root.Kept.of_run (k : Root.Kept Good Allowed) {root after : Root} {c : Command}
    {outcome : Except Fault Answer} (h : Good root) (hc : Allowed c)
    (hrun : c.run root = (outcome, after)) : Good after := by
  have hafter := k.run h hc
  rwa [hrun] at hafter

section Queues

variable {root : Root} {queue : List Command}

theorem Root.Kept.runAll (k : Root.Kept Good Allowed) (h : Good root)
    (hq : ∀ c ∈ queue, Allowed c) : Good (runAll root queue).2 := by
  induction queue generalizing root with
  | nil => exact h
  | cons c rest ih =>
    obtain ⟨hc, hrest⟩ := List.forall_mem_cons.mp hq
    unfold TableStore.runAll
    cases hr : c.run root with
    | mk outcome next =>
      have hnext := k.of_run h hc hr
      cases outcome with
      | error fault => exact hnext
      | ok answer =>
        have hlast := ih hnext hrest
        simp only
        cases hr' : TableStore.runAll next rest with
        | mk outcome last =>
          rw [hr'] at hlast
          cases outcome <;> exact hlast

/-- A commit keeps what its commands keep, whether it runs to its end or is undone. -/
theorem Root.Kept.runQueue (k : Root.Kept Good Allowed) (h : Good root)
    (hq : ∀ c ∈ queue, Allowed c) : Good (runQueue root [] queue).2 := by
  cases hr : TableStore.runQueue root [] queue with
  | mk outcome after =>
    cases outcome with
    | error fault => exact k.congr h (sameEntries_of_runQueue_error hr)
    | ok answers =>
      have hlast := k.runAll h hq
      rw [runAll_of_runQueue_ok hr] at hlast
      exact hlast

end Queues

/-- The statement that a call has queued or carried out. -/
def Call.statement? : Call → Option String
  | .exec _ text | .guardExec _ text | .execute text => some text
  | _ => none

/-- A call gives no commands but those of a kind. -/
def Call.Gives (Allowed : Command → Prop) (call : Call) : Prop :=
  ∀ text c, call.statement? = some text → Command.read text = .ok c → Allowed c

namespace Database

variable {db db' : Database} {id : Nat} {c : Command} {text : String}

/-- The root has a property, and what is queued keeps it. -/
structure Keeps (Good : Root → Prop) (Allowed : Command → Prop) (db : Database) : Prop where
  root : Good db.root
  queue : ∀ t, db.slot.current = some t → ∀ c ∈ t.queue, Allowed c

theorem keeps_of_free (h : Good db.root) (free : db.slot.current = none) :
    db.Keeps Good Allowed := by
  refine ⟨h, ?_⟩
  rw [free]
  nofun

namespace Keeps

theorem begin (h : db.Keeps Good Allowed) (hb : db.begin? = some (id, db')) :
    db'.Keeps Good Allowed := by
  obtain ⟨-, hdb⟩ := begin?_eq_some.mp hb
  cases hdb
  refine ⟨h.root, ?_⟩
  rintro t ⟨⟩
  nofun

theorem exec (h : db.Keeps Good Allowed) (hc : ∀ c, Command.read text = .ok c → Allowed c)
    (he : db.exec id text = .ok db') : db'.Keeps Good Allowed := by
  obtain ⟨slot, hs, rfl⟩ := Outcome.map_eq_ok.mp he
  obtain ⟨c, hread, hs⟩ := Slot.exec_eq_ok.mp hs
  obtain ⟨t, ht, -, -, rfl⟩ := Slot.enqueue_eq_ok.mp hs
  refine ⟨h.root, ?_⟩
  rintro u ⟨⟩ d hd
  rcases List.mem_append.mp hd with hd | hd
  · exact h.queue t ht d hd
  · cases List.mem_singleton.mp hd
    exact hc c hread

theorem commit (k : Root.Kept Good Allowed) (h : db.Keeps Good Allowed) (id : Nat) :
    (db.commit id).2.Keeps Good Allowed := by
  cases ht : db.slot.take id with
  | error fault =>
    unfold Database.commit
    rw [ht]
    exact h
  | ok p =>
    obtain ⟨t, hcurrent, rfl, -⟩ := Slot.take_eq_ok.mp ht
    rw [commit_eq hcurrent]
    exact ⟨k.runQueue h.root (h.queue t hcurrent), nofun⟩

theorem rollback (h : db.Keeps Good Allowed) (hr : db.rollback id = .ok db') :
    db'.Keeps Good Allowed := by
  obtain ⟨p, hp, rfl⟩ := Outcome.map_eq_ok.mp hr
  obtain ⟨t, -, -, rfl⟩ := Slot.take_eq_ok.mp hp
  exact ⟨h.root, nofun⟩

theorem execute (k : Root.Kept Good Allowed) (h : db.Keeps Good Allowed)
    (hc : ∀ c, Command.read text = .ok c → Allowed c) {outcome : Except Fault Answer}
    (he : db.execute? text = some (outcome, db')) : db'.Keeps Good Allowed := by
  rcases execute?_cases (free_of_execute? he) text with
    ⟨-, fault, hexecute⟩ | ⟨c, hread, -, hexecute⟩
  · cases he.symm.trans hexecute
    exact ⟨h.root, nofun⟩
  · cases he.symm.trans hexecute
    exact ⟨k.runQueue h.root (by simpa using hc c hread), nofun⟩

theorem settled {outcome : Except Fault Database} (h : db.Keeps Good Allowed)
    (ho : ∀ db', outcome = .ok db' → db'.Keeps Good Allowed) :
    (db.settled outcome).2.Keeps Good Allowed := by
  cases outcome with
  | ok db' => exact ho db' rfl
  | error fault => exact h

theorem serve (k : Root.Kept Good Allowed) (h : db.Keeps Good Allowed) (call : Call)
    (hc : call.Gives Allowed) : (db.serve call).2.Keeps Good Allowed := by
  have opened : (db.serve .begin).2.Keeps Good Allowed := by
    simp only [Database.serve]
    split
    · next hb => exact h.begin hb
    · exact h
  rw [← serve_plain]
  cases call with
  | begin => exact opened
  | openGuard => exact opened
  | tryBegin => exact opened
  | exec id text => exact h.settled fun db' he => h.exec (fun c => hc text c rfl) he
  | guardExec guard text => exact h.settled fun db' he => h.exec (fun c => hc text c rfl) he
  | commit id => exact h.commit k id
  | guardCommit guard => exact h.commit k guard.id
  | rollback id => exact h.settled fun db' hr => h.rollback hr
  | guardRollback guard => exact h.settled fun db' hr => h.rollback hr
  | guardDrop guard => exact h.settled fun db' hr => h.rollback hr
  | execute text =>
    simp only [Call.plain, Database.serve]
    split
    · next he => exact h.execute k (fun c => hc text c rfl) he
    · exact h
  | _ => exact h

theorem openAt (k : Root.Kept Good Allowed) (h : Good db.root)
    (ho : Database.openAt db.root = .ok db') : db'.Keeps Good Allowed := by
  by_cases hp : db.root.place = .plainFile
  · unfold Database.openAt at ho
    rw [Root.ensure_of_plainFile hp] at ho
    cases ho
  · unfold Database.openAt at ho
    rw [Root.ensure_eq_made hp] at ho
    cases ho
    exact ⟨k.congr h (Root.sameEntries_made hp), nofun⟩

end Keeps

end Database

end TableStore
