import TableStore.Proofs.Database.Serial

/-! One transaction at a time. Whatever is called in whatever order, at most one transaction
is open, its id was never given before, and calls that name another one are refused and
change nothing. -/
namespace TableStore

structure Exchange where
  call : Call
  reply : Reply

/-- Whether a call is for a transaction that is still to be begun. -/
def Call.isBeginning : Call → Bool
  | .begin | .tryBegin | .openGuard | .execute _ => true
  | _ => false

/-- The transaction that a call needs to be open. -/
def Call.needs? : Call → Option Nat
  | .exec id _ | .pending id | .commit id | .rollback id => some id
  | .guardExec guard _ | .guardPending guard => some guard.id
  | .guardCommit guard | .guardRollback guard => some guard.id
  | _ => none

/-- The transaction that is over after a call. -/
def Call.ends? (call : Call) : Option Nat :=
  match call.plain with
  | .commit id | .rollback id => some id
  | _ => none

/-- The id that a client is given. -/
def Reply.given? : Reply → Option Nat
  | .begun id => some id
  | .opened guard => some guard.id
  | _ => none

namespace Exchange

def given (past : List Exchange) : List Nat :=
  past.filterMap fun e => e.reply.given?

/-- The transactions whose ids were given and that are not over since. -/
def unfinished (past : List Exchange) : List Nat :=
  past.foldl (fun ids e => ids.filter (e.call.ends? ≠ some ·) ++ e.reply.given?.toList) []

def beginnings (past : List Exchange) : Nat :=
  past.countP fun e => e.call.isBeginning

variable {past : List Exchange} {e : Exchange}

theorem given_append_singleton : given (past ++ [e]) = given past ++ e.reply.given?.toList := by
  unfold given
  rw [List.filterMap_append]
  cases h : e.reply.given? <;> simp [h]

theorem unfinished_append_singleton : unfinished (past ++ [e]) =
    (unfinished past).filter (e.call.ends? ≠ some ·) ++ e.reply.given?.toList := by
  unfold unfinished
  rw [List.foldl_append]
  rfl

theorem beginnings_append_singleton : beginnings (past ++ [e]) =
    beginnings past + if e.call.isBeginning then 1 else 0 := by
  unfold beginnings
  rw [List.countP_append, List.countP_singleton]

end Exchange

def Session.exchanges (s : Session) : List Call → List Exchange
  | [] => []
  | call :: calls => ⟨call, (s.db.serve call).1⟩ :: (s.step call).exchanges calls

open Exchange

namespace Database

variable {db : Database} {id : Nat} {call : Call} {guard : Guard}

/-- A transaction that is not open cannot be used. -/
theorem serve_of_ne (hneeds : call.needs? = some id) (hne : db.active? ≠ some id) :
    db.serve call = (.refused (.transactionNotFound id), db) := by
  have hfind : db.slot.find id = .error (.transactionNotFound id) := Slot.find_of_ne hne
  have hexec (text : String) :
      db.serve (.exec id text) = (.refused (.transactionNotFound id), db) := by
    simp only [serve, exec, Slot.exec, hfind]
    rfl
  have hpending : db.serve (.pending id) = (.refused (.transactionNotFound id), db) := by
    simp only [serve, pending, Slot.pending, hfind]
    rfl
  have hcommit : db.serve (.commit id) = (.refused (.transactionNotFound id), db) := by
    simp only [serve, commit, Slot.take, hfind]
    rfl
  have hrollback : db.serve (.rollback id) = (.refused (.transactionNotFound id), db) := by
    simp only [serve, rollback, Slot.take, hfind]
    rfl
  cases call with
  | exec | guardExec => cases hneeds; exact hexec _
  | pending | guardPending => cases hneeds; exact hpending
  | commit | guardCommit => cases hneeds; exact hcommit
  | rollback | guardRollback => cases hneeds; exact hrollback
  | _ => cases hneeds

theorem serve_guardDrop_of_ne (hne : db.active? ≠ some guard.id) :
    db.serve (.guardDrop guard) = (.done, db) := by
  have hfind : db.slot.find guard.id = .error (.transactionNotFound guard.id) :=
    Slot.find_of_ne hne
  simp only [serve, Guard.drop, abandon, rollback, Slot.take, hfind]
  rfl

/-- An open transaction that is committed or dropped leaves the slot free. -/
theorem slot_serve_of_ends (hends : call.ends? = some id) (hactive : db.active? = some id) :
    (db.serve call).2.slot = { db.slot with current := none } := by
  obtain ⟨t, ht, rfl⟩ := Option.map_eq_some_iff.mp hactive
  have hcommit : (db.serve (.commit t.id)).2.slot = { db.slot with current := none } := by
    simp only [serve, commit_eq ht]
    rfl
  have hrollback : (db.serve (.rollback t.id)).2.slot = { db.slot with current := none } := by
    have htake := Slot.take_eq_ok.mpr ⟨t, ht, rfl, rfl⟩
    simp only [serve, rollback, htake]
    rfl
  rw [← serve_plain]
  unfold Call.ends? at hends
  split at hends
  · next hplain =>
    cases hends
    rw [hplain]
    exact hcommit
  · next hplain =>
    cases hends
    rw [hplain]
    exact hrollback
  · cases hends

theorem serve_of_exec_refused {text : String} {fault : Fault} (hexec : call.plain = .exec id text)
    (hrefused : (db.serve call).1 = .refused fault) : (db.serve call).2 = db := by
  have settled (outcome : Except Fault Database) (h : (db.settled outcome).1 = .refused fault) :
      (db.settled outcome).2 = db := by
    cases outcome with
    | ok db => cases h
    | error fault => rfl
  cases call with
  | exec | guardExec => exact settled _ hrefused
  | _ => cases hexec

theorem serve_pending {t : Transaction} (hpending : call.plain = .pending id)
    (ht : db.slot.current = some t) (hid : t.id = id) :
    db.serve call = (.queued t.queue, db) := by
  have hfind : db.slot.find id = .ok t := Slot.find_eq_ok.mpr ⟨ht, hid⟩
  have hserve : db.serve (.pending id) = (.queued t.queue, db) := by
    simp only [serve, pending, Slot.pending, hfind]
    rfl
  cases call with
  | pending | guardPending => cases hpending; exact hserve
  | _ => cases hpending

end Database

/-- What a call can do to the slot, and what its client can tell of it. -/
inductive SlotStep (s : Slot) (e : Exchange) : Slot → Prop
  /-- The same transaction is open, or none as before. -/
  | quiet {s' : Slot} (same : s'.current.map Transaction.id = s.current.map Transaction.id)
      (next : s'.nextId = s.nextId) (silent : e.reply.given? = none)
      (others : ∀ id, e.call.ends? = some id → s.current.map Transaction.id ≠ some id) :
      SlotStep s e s'
  | begun (free : s.current = none) (beginning : e.call.isBeginning = true)
      (given : e.reply.given? = some s.nextId) : SlotStep s e (s.opened [])
  | ended {t : Transaction} (taken : s.current = some t) (silent : e.reply.given? = none)
      (ends : e.call.ends? = some t.id) : SlotStep s e { s with current := none }
  /-- A transaction of one statement. -/
  | passed (free : s.current = none) (beginning : e.call.isBeginning = true)
      (silent : e.reply.given? = none) (ends : e.call.ends? = none) : SlotStep s e s.passed

namespace Database

variable {call : Call}

/-- Only a client that begins a transaction is given an id. -/
theorem given?_serve (db : Database) (hcall : call.plain ≠ .begin) :
    (db.serve call).1.given? = none := by
  have outcome {α : Type} (reply : α → Reply) (h : ∀ a, (reply a).given? = none)
      (x : Except Fault α) : (Reply.ofOutcome reply x).given? = none := by
    cases x with
    | ok a => exact h a
    | error fault => rfl
  have settled (x : Except Fault Database) : (db.settled x).1.given? = none := by
    cases x <;> rfl
  cases call with
  | begin | tryBegin | openGuard => exact absurd rfl hcall
  | exec | guardExec | rollback | guardRollback => exact settled _
  | execute text =>
    simp only [serve]
    cases db.execute? text with
    | none => rfl
    | some p => exact outcome .answer (fun _ => rfl) _
  | pending | guardPending => exact outcome .queued (fun _ => rfl) _
  | commit | guardCommit => exact outcome .committed (fun _ => rfl) _
  | query => exact outcome .answer (fun _ => rfl) _
  | queryRow => exact outcome .row (fun _ => rfl) _
  | schema => exact outcome .schema (fun _ => rfl) _
  | guardDrop | active | hasTable | tables => rfl

end Database

namespace SlotStep

variable {db : Database} {call : Call} {id : Nat}

/-- A call that leaves the slot alone. -/
theorem same {s : Slot} {e : Exchange} (silent : e.reply.given? = none)
    (others : ∀ id, e.call.ends? = some id → s.current.map Transaction.id ≠ some id) :
    SlotStep s e s :=
  .quiet rfl rfl silent others

/-- A call that is about no transaction, or has to wait for one. -/
theorem aside {s : Slot} {e : Exchange} (silent : e.reply.given? = none)
    (ends : e.call.ends? = none) : SlotStep s e s := by
  refine same silent fun id hid => ?_
  cases ends.symm.trans hid

theorem exec {text : String} (hexec : call.plain = .exec id text) :
    SlotStep db.slot ⟨call, (db.serve call).1⟩ (db.serve call).2.slot := by
  have silent : (db.serve call).1.given? = none := by
    refine db.given?_serve fun hplain => ?_
    cases hexec.symm.trans hplain
  have ends : call.ends? = none := by
    unfold Call.ends?
    rw [hexec]
  rw [← Database.serve_plain, hexec]
  show SlotStep _ _ (db.settled (db.exec id text)).2.slot
  cases he : db.exec id text with
  | error fault => exact aside silent ends
  | ok db' =>
    obtain ⟨slot, hslot, rfl⟩ := Outcome.map_eq_ok.mp he
    obtain ⟨c, -, hslot⟩ := Slot.exec_eq_ok.mp hslot
    obtain ⟨t, ht, -, -, rfl⟩ := Slot.enqueue_eq_ok.mp hslot
    refine .quiet ?_ rfl silent fun id hid => ?_
    · rw [ht]
      rfl
    · cases ends.symm.trans hid

/-- A call that ends its transaction, if that is open. -/
theorem ending (ends : call.ends? = some id)
    (stale : db.active? ≠ some id → (db.serve call).2 = db) :
    SlotStep db.slot ⟨call, (db.serve call).1⟩ (db.serve call).2.slot := by
  have silent : (db.serve call).1.given? = none := by
    refine db.given?_serve fun hplain => ?_
    unfold Call.ends? at ends
    rw [hplain] at ends
    cases ends
  by_cases hactive : db.active? = some id
  · obtain ⟨t, ht, hid⟩ := Option.map_eq_some_iff.mp hactive
    rw [Database.slot_serve_of_ends ends hactive]
    exact .ended ht silent (ends.trans (congrArg some hid.symm))
  · rw [stale hactive]
    refine same silent fun other hother => ?_
    cases ends.symm.trans hother
    exact hactive

theorem execute (db : Database) (text : String) :
    SlotStep db.slot ⟨.execute text, (db.serve (.execute text)).1⟩
      (db.serve (.execute text)).2.slot := by
  have silent : (db.serve (.execute text)).1.given? = none := by
    refine db.given?_serve fun hplain => ?_
    cases hplain
  by_cases free : db.slot.current = none
  · have hslot : (db.serve (.execute text)).2.slot = db.slot.passed := by
      simp only [Database.serve]
      rcases Database.execute?_cases free text with ⟨-, fault, h⟩ | ⟨c, -, -, h⟩ <;> rw [h]
    rw [hslot]
    exact .passed free rfl silent rfl
  · simp only [Database.serve, Database.execute?_eq_none.mpr free]
    exact aside rfl rfl

end SlotStep

/-- One call, as far as the slot is concerned. -/
theorem Database.slotStep (db : Database) (call : Call) :
    SlotStep db.slot ⟨call, (db.serve call).1⟩ (db.serve call).2.slot := by
  have stale {call : Call} {id : Nat} (hneeds : call.needs? = some id)
      (hne : db.active? ≠ some id) : (db.serve call).2 = db := by
    rw [serve_of_ne hneeds hne]
  cases call with
  | begin | tryBegin | openGuard =>
    simp only [serve, begin?, tryBegin, Slot.begin?, Slot.tryBegin, Guard.open?]
    cases hcurrent : db.slot.current with
    | none => exact .begun hcurrent rfl rfl
    | some t => exact .aside rfl rfl
  | exec | guardExec => exact .exec rfl
  | commit | rollback | guardCommit | guardRollback => exact .ending rfl (stale rfl)
  | guardDrop guard =>
    refine .ending rfl fun hne => ?_
    rw [serve_guardDrop_of_ne hne]
  | execute text => exact .execute db text
  | _ =>
    refine .aside (db.given?_serve fun hplain => ?_) rfl
    cases hplain

/-- What the exchanges of a session tell about its slot. -/
structure Slot.Tracks (s : Slot) (past : List Exchange) : Prop where
  single : unfinished past = (s.current.map Transaction.id).toList
  increasing : (given past).Pairwise (· < ·)
  below : ∀ id ∈ given past, id < s.nextId
  counted : s.nextId ≤ beginnings past + 1

namespace Slot.Tracks

variable {s s' : Slot} {past : List Exchange} {e : Exchange}

theorem start : Tracks {} [] :=
  ⟨rfl, .nil, List.forall_mem_nil _, Nat.le_refl 1⟩

/-- A call that gives no id, and leaves the next one as it is or takes it. -/
theorem silent (h : s.Tracks past) (silent : e.reply.given? = none)
    (single : (unfinished past).filter (e.call.ends? ≠ some ·) =
      (s'.current.map Transaction.id).toList) (later : s.nextId ≤ s'.nextId)
    (counted : s'.nextId ≤ beginnings (past ++ [e]) + 1) : s'.Tracks (past ++ [e]) := by
  have hgiven : given (past ++ [e]) = given past := by
    rw [given_append_singleton, silent, Option.toList_none, List.append_nil]
  refine ⟨?_, ?_, ?_, counted⟩
  · rw [unfinished_append_singleton, silent, Option.toList_none, List.append_nil, single]
  · rw [hgiven]
    exact h.increasing
  · rw [hgiven]
    exact fun id hid => Nat.lt_of_lt_of_le (h.below id hid) later

theorem step (h : s.Tracks past) (hstep : SlotStep s e s') : s'.Tracks (past ++ [e]) := by
  have kept : s.nextId ≤ beginnings (past ++ [e]) + 1 := by
    have := h.counted
    rw [beginnings_append_singleton]
    omega
  have more (hbeginning : e.call.isBeginning = true) :
      s.nextId + 1 ≤ beginnings (past ++ [e]) + 1 := by
    rw [beginnings_append_singleton, if_pos hbeginning]
    exact Nat.succ_le_succ h.counted
  have none_unfinished (free : s.current = none) : unfinished past = [] := by
    rw [h.single, free]
    rfl
  cases hstep with
  | quiet same next silent others =>
    refine h.silent silent ?_ (Nat.le_of_eq next.symm) (next ▸ kept)
    rw [same, h.single, List.filter_eq_self]
    intro id hid
    exact decide_eq_true fun hends => others id hends (Option.mem_toList.mp hid)
  | begun free beginning hgiven =>
    refine ⟨?_, ?_, ?_, more beginning⟩
    · rw [unfinished_append_singleton, none_unfinished free, hgiven]
      rfl
    · rw [given_append_singleton, hgiven]
      exact List.pairwise_append.mpr ⟨h.increasing, List.pairwise_singleton _ _,
        fun id hid _ hnew => List.mem_singleton.mp hnew ▸ h.below id hid⟩
    · rw [given_append_singleton, hgiven]
      intro id hid
      rcases List.mem_append.mp hid with hid | hid
      · exact Nat.lt_succ_of_lt (h.below id hid)
      · exact List.mem_singleton.mp hid ▸ Nat.lt_succ_self _
  | ended taken silent ends =>
    refine h.silent silent ?_ (Nat.le_refl _) kept
    rw [h.single, taken, ends]
    simp
  | passed free beginning silent =>
    refine h.silent silent ?_ (Nat.le_succ _) (more beginning)
    rw [none_unfinished free]
    rfl

end Slot.Tracks

namespace Session

variable {s : Session} {past : List Exchange}

theorem tracks_run (h : s.db.slot.Tracks past) (calls : List Call) :
    (s.run calls).db.slot.Tracks (past ++ s.exchanges calls) := by
  induction calls generalizing s past with
  | nil =>
    rw [exchanges, List.append_nil]
    exact h
  | cons call calls ih =>
    rw [exchanges, List.append_cons]
    exact ih (h.step (s.db.slotStep call))

/-- What holds after some exchanges: one transaction at most is open, no id is given twice,
and every call is served as that transaction allows. -/
structure Exclusive (past : List Exchange) (s : Session) : Prop where
  single : unfinished past = s.db.active?.toList
  increasing : (given past).Pairwise (· < ·)
  counted : ∀ id ∈ given past, id ≤ beginnings past
  free : s.db.active? = none → ∃ id, (∀ old ∈ given past, old < id) ∧
    (s.db.serve .begin).1 = .begun id ∧ (s.db.serve .tryBegin).1 = .begun id ∧
    (s.db.serve .openGuard).1 = .opened ⟨id⟩
  taken : ∀ id, s.db.active? = some id → s.db.serve .begin = (.waits, s.db) ∧
    s.db.serve .tryBegin = (.refused (.transactionOpen id), s.db) ∧
    s.db.serve .openGuard = (.waits, s.db)
  stale : ∀ call id, call.needs? = some id → s.db.active? ≠ some id →
    s.db.serve call = (.refused (.transactionNotFound id), s.db)
  dropped : ∀ guard : Guard, s.db.active? ≠ some guard.id →
    s.db.serve (.guardDrop guard) = (.done, s.db)
  frees : ∀ call id, call.ends? = some id → s.db.active? = some id →
    (s.db.serve call).2.active? = none
  refused : ∀ call id text fault, call.plain = .exec id text →
    (s.db.serve call).1 = .refused fault → (s.db.serve call).2 = s.db
  pending : ∀ call id, call.plain = .pending id → s.db.active? = some id →
    s.db.serve call = (.queued (s.ledger.queue id), s.db)

/-- However the calls of all clients are mixed, and whatever fails, at most one transaction
is open; ids are given in increasing order; and the calls for a new transaction, the open
one or any other are served as they should be. -/
theorem run_exclusive (root : Root) (calls : List Call) :
    Exclusive ((start root).exchanges calls) ((start root).run calls) := by
  have tracks := tracks_run (s := start root) Slot.Tracks.start calls
  rw [List.nil_append] at tracks
  have agrees := (serial_run (serial_start root) calls).agrees
  generalize (start root).exchanges calls = past at tracks ⊢
  generalize (start root).run calls = s at tracks agrees ⊢
  refine ⟨tracks.single, tracks.increasing, ?_, ?_, ?_, fun _ _ => Database.serve_of_ne,
    fun _ => Database.serve_guardDrop_of_ne, ?_, fun _ _ _ _ => Database.serve_of_exec_refused, ?_⟩
  · intro id hid
    have := tracks.below id hid
    have := tracks.counted
    omega
  · intro hactive
    have free : s.db.slot.current = none := Option.map_eq_none_iff.mp hactive
    refine ⟨s.db.slot.nextId, tracks.below, ?_⟩
    simp only [Database.serve, Database.begin?, Database.tryBegin, Guard.open?, Slot.begin?,
      Slot.tryBegin, free]
    exact ⟨rfl, rfl, rfl⟩
  · intro id hactive
    obtain ⟨t, taken, rfl⟩ := Option.map_eq_some_iff.mp hactive
    simp only [Database.serve, Database.begin?, Database.tryBegin, Guard.open?, Slot.begin?,
      Slot.tryBegin, taken]
    exact ⟨rfl, rfl, rfl⟩
  · intro call id hends hactive
    unfold Database.active?
    rw [Database.slot_serve_of_ends hends hactive]
    rfl
  · intro call id hpending hactive
    obtain ⟨t, ht, rfl⟩ := Option.map_eq_some_iff.mp hactive
    rw [Database.serve_pending hpending ht rfl, agrees.queue t ht]

end Session

end TableStore
