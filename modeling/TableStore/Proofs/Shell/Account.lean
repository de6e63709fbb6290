import Mathlib.Data.List.TakeDrop
import TableStore.Proofs.Database.Serial
import TableStore.Proofs.Sql.Statement
import TableStore.Shell.Session

/-! The shell applies what was committed and nothing else. What takes effect can be told from
the lines of input alone; the transaction that the shell holds is always the open one, so the
shell never waits for itself. -/
namespace TableStore

open TableStore.Text TableStore.Sql

theorem Command.verb_ofStatement (s : Statement) : (ofStatement s).verb = s.verb := by
  unfold ofStatement
  cases s.verb <;> rfl

namespace Shell

/-- If the first token of a text is a word, its first piece is that word and what stands right
behind it. -/
theorem nextPiece_of_word {pos : Nat} {cs : List Char} {u : Spanned} {us : List Spanned}
    {w : String} (h : Tiles [] pos cs (u :: us)) (hu : u.token = .word w) :
    ∃ more stop, (Token.word w).Ends more ∧ Tiles [] stop more us ∧
      (nextPiece cs).1 = w.toList ++ more.takeWhile fun c => !isBlank c := by
  cases h with
  | @token _ gap t more _ blank ends tail =>
    cases hu
    rw [List.append_nil] at ends
    have solid : ∀ c ∈ w.toList, (!isBlank c) = true := by
      intro c hc
      rw [(Token.isDelimiter_eq_false.mp (ends.2.1 c hc)).1]
      rfl
    have head : ∀ c ∈ (w.toList ++ more).head?, isBlank c = false := by
      intro c hc
      obtain ⟨d, ds, hw⟩ := List.exists_cons_of_ne_nil ends.1
      rw [hw] at hc
      cases hc
      simpa using solid c (hw ▸ List.mem_cons_self)
    have piece : (nextPiece (gap ++ (w.toList ++ more))).1 =
        w.toList ++ more.takeWhile fun c => !isBlank c := by
      unfold nextPiece
      rw [dropWhile_append_stop blank head, List.span_eq_takeWhile_dropWhile,
        List.takeWhile_append_of_pos solid]
    exact ⟨more, _, ends, tail, piece⟩

theorem word_isPrefix_nextPiece {pos : Nat} {cs : List Char} {u : Spanned} {us : List Spanned}
    {w : String} (h : Tiles [] pos cs (u :: us)) (hu : u.token = .word w) :
    w.toList <+: (nextPiece cs).1 := by
  obtain ⟨more, -, -, -, piece⟩ := nextPiece_of_word h hu
  exact ⟨_, piece.symm⟩

/-- A line that is sent to be read as a selection is not the text of a change. -/
theorem isReadOnly_of_isSelection {line : List Char} {c : Command} (hline : isSelection line = true)
    (hread : Command.read (String.ofList line) = .ok c) : c.isReadOnly = true := by
  obtain ⟨s, hs, rfl⟩ := Outcome.map_eq_ok.mp hread
  obtain ⟨ts, ending, hscan, -, produced⟩ := Statement.read_eq_ok.mp hs
  obtain ⟨us, htiles, heq⟩ := Token.scan_eq_ok.mp hscan
  obtain ⟨u, more, w, rfl, hu, spells⟩ := produced.head
  rw [String.toList_ofList] at htiles
  have begins : w.toList <+: (nextPiece line).1 := by
    cases us with
    | nil =>
      cases (List.cons.inj heq).1
      cases hu
    | cons v us =>
      cases (List.cons.inj heq).1
      exact word_isPrefix_nextPiece htiles hu
  unfold isSelection at hline
  split at hline
  · next v hv =>
    have hpiece : (nextPiece line).1.map Char.toUpper = v.keyword.toList := by
      have := Verb.ofWord?_eq_some.mp hv
      rwa [Verb.Spells, String.toList_ofList] at this
    have hprefix : s.verb.keyword.toList <+: v.keyword.toList := by
      rw [← hpiece, ← spells]
      exact begins.map Char.toUpper
    have hverb : v = .select := by simpa [Verb.isReadOnly] using hline
    unfold Command.isReadOnly
    rw [Command.verb_ofStatement]
    revert hprefix
    rw [hverb]
    cases s.verb <;> decide
  · cases hline

/-- What a line of input means for the tables. -/
inductive Intent where
  | change (c : Command)
  | begin
  | commit
  | rollback
  | leave
  | nothing
deriving DecidableEq

namespace Intent

def ofDotCommand (name : String) : Intent :=
  if name = ".begin" then .begin
  else if name = ".commit" then .commit
  else if name = ".rollback" then .rollback
  else if name = ".quit" ∨ name = ".exit" then .leave
  else .nothing

def ofStatement (text : String) : Intent :=
  match Command.read text with
  | .ok c => if c.isReadOnly then .nothing else .change c
  | .error _ => .nothing

def ofLine (line : String) : Intent :=
  match strip isBlank line.toList with
  | [] => .nothing
  | '.' :: rest => ofDotCommand (String.ofList (nextPiece ('.' :: rest)).1)
  | cs => ofStatement (String.ofList cs)

def ofLines : List String → List Intent
  | [] => []
  | line :: lines => ofLine line :: if ofLine line = .leave then [] else ofLines lines

theorem ofStatement_eq_nothing {text : String}
    (h : ∀ c, Command.read text = .ok c → c.isReadOnly = true) : ofStatement text = .nothing := by
  unfold ofStatement
  split
  · next c hc => rw [if_pos (h c hc)]
  · rfl

theorem ofStatement_ne_leave (text : String) : ofStatement text ≠ .leave := by
  unfold ofStatement
  split
  · split <;> nofun
  · nofun

theorem ofDotCommand_ne_change (name : String) (c : Command) : ofDotCommand name ≠ .change c := by
  unfold ofDotCommand
  split_ifs <;> nofun

theorem ofStatement_eq_change {text : String} {c : Command} (hread : Command.read text = .ok c)
    (hc : c.isReadOnly = false) : ofStatement text = .change c := by
  simp only [ofStatement, hread, hc, Bool.false_eq_true, if_false]

end Intent

/-- The queues that took effect, in order, and the one of the open transaction. -/
structure Account where
  committed : List (List Command) := []
  queue : Option (List Command) := none

namespace Account

variable {root r : Root} {a : Account} {queue : List Command}

/-- A queue that runs to its end takes effect. -/
def settle (root : Root) (a : Account) (queue : List Command) : Account :=
  match (runAll (serially root a.committed) queue).1 with
  | .ok _ => { committed := a.committed ++ [queue] }
  | .error _ => { committed := a.committed }

def enter (root : Root) (a : Account) : Intent → Account
  | .change c =>
    match a.queue with
    | some queue => { a with queue := some (queue ++ [c]) }
    | none => a.settle root [c]
  | .begin =>
    match a.queue with
    | some _ => a
    | none => { a with queue := some [] }
  | .commit =>
    match a.queue with
    | some queue => a.settle root queue
    | none => a
  | .rollback | .leave => { a with queue := none }
  | .nothing => a

def ofLines (root : Root) (lines : List String) : Account :=
  (Intent.ofLines lines).foldl (enter root) {}

theorem queue_settle : (a.settle root queue).queue = none := by
  unfold settle
  split <;> rfl

/-- A queue changes the files as the account says. -/
theorem files_settle (h : r.SameEntries (serially root a.committed)) (queue : List Command) :
    (runQueue r [] queue).2.SameEntries (serially root (a.settle root queue).committed) := by
  obtain ⟨hout, hroot⟩ := runAll_congr h queue
  unfold settle
  cases hq : runQueue r [] queue with
  | mk outcome after =>
    cases outcome with
    | ok answers =>
      rw [runQueue_eq_ok.mp hq] at hout hroot
      rw [← hout]
      simp only [serially, List.foldl_append]
      exact hroot
    | error fault =>
      have failed : ∃ fault, (runAll (serially root a.committed) queue).1 = .error fault := by
        rw [← hout]
        cases hall : runAll r queue with
        | mk outcome last =>
          cases outcome with
          | ok answers => cases hq.symm.trans (runQueue_eq_ok.mpr hall)
          | error fault => exact ⟨fault, rfl⟩
      obtain ⟨fault, failed⟩ := failed
      rw [failed]
      exact (sameEntries_of_runQueue_error hq).trans h

end Account

namespace Session

variable {s : Session} {root : Root} {a : Account} {id : Nat}

/-- The transaction that the shell holds is the open one, and the account of its lines says
what is queued in it and what the files are. -/
structure Agrees (s : Session) (root : Root) (a : Account) : Prop where
  held : s.held = s.db.active?
  queue : s.db.slot.current.map Transaction.queue = a.queue
  files : s.db.root.SameEntries (serially root a.committed)

theorem agrees_free {r : Root} {slot : Slot} (free : slot.current = none)
    (hr : r.SameEntries (serially root a.committed)) (hq : a.queue = none) :
    Agrees ⟨⟨r, slot⟩, none⟩ root a :=
  ⟨by simp [Database.active?, free], by simp [free, hq], hr⟩

namespace Agrees

theorem free (h : s.Agrees root a) (hs : s.held = none) :
    s.db.slot.current = none ∧ a.queue = none := by
  have hcurrent : s.db.slot.current = none := Option.map_eq_none_iff.mp (h.held.symm.trans hs)
  refine ⟨hcurrent, ?_⟩
  rw [← h.queue, hcurrent]
  rfl

theorem taken (h : s.Agrees root a) (hs : s.held = some id) :
    ∃ t, s.db.slot.current = some t ∧ t.id = id ∧ a.queue = some t.queue := by
  obtain ⟨t, ht, hid⟩ := Option.map_eq_some_iff.mp (h.held.symm.trans hs)
  refine ⟨t, ht, hid, ?_⟩
  rw [← h.queue, ht]
  rfl

theorem begin (h : s.Agrees root a) : s.begin.2.Agrees root (a.enter root .begin) := by
  unfold Session.begin
  cases hs : s.held with
  | some id =>
    obtain ⟨t, -, -, hq⟩ := h.taken hs
    simp only [Account.enter, hq]
    exact h
  | none =>
    obtain ⟨hcurrent, hq⟩ := h.free hs
    simp only [Account.enter, hq, Database.tryBegin, Slot.tryBegin, hcurrent]
    exact ⟨rfl, rfl, h.files⟩

theorem commit (h : s.Agrees root a) : s.commit.2.Agrees root (a.enter root .commit) := by
  unfold Session.commit
  cases hs : s.held with
  | none =>
    simp only [Account.enter, (h.free hs).2]
    exact h
  | some id =>
    obtain ⟨t, ht, rfl, hq⟩ := h.taken hs
    have settled : Agrees ⟨⟨(runQueue s.db.root [] t.queue).2, { s.db.slot with current := none }⟩,
        none⟩ root (a.settle root t.queue) :=
      agrees_free rfl (a.files_settle h.files t.queue) a.queue_settle
    simp only [Account.enter, hq, Database.commit_eq ht]
    cases (runQueue s.db.root [] t.queue).1 with
    | ok answers => exact settled
    | error fault => exact settled

theorem rollback (h : s.Agrees root a) : s.rollback.2.Agrees root { a with queue := none } := by
  unfold Session.rollback
  cases hs : s.held with
  | none =>
    have same : { a with queue := none } = a := by rw [← (h.free hs).2]
    simp only [same]
    exact h
  | some id =>
    obtain ⟨t, ht, hid, -⟩ := h.taken hs
    simp only [Database.rollback, Slot.take_eq_ok.mpr ⟨t, ht, hid, rfl⟩]
    exact agrees_free rfl h.files rfl

theorem queued (h : s.Agrees root a) (hs : s.held = some id) (text : String) :
    (match s.db.exec id text with
      | .ok db => Agrees ⟨db, some id⟩
      | .error _ => s.Agrees) root (a.enter root (.ofStatement text)) := by
  obtain ⟨t, ht, rfl, hq⟩ := h.taken hs
  cases he : s.db.exec t.id text with
  | ok db =>
    obtain ⟨slot, hslot, rfl⟩ := Outcome.map_eq_ok.mp he
    obtain ⟨c, hread, hslot⟩ := Slot.exec_eq_ok.mp hslot
    obtain ⟨u, hu, -, hc, rfl⟩ := Slot.enqueue_eq_ok.mp hslot
    cases ht.symm.trans hu
    simp only [Intent.ofStatement_eq_change hread hc, Account.enter, hq]
    exact ⟨rfl, rfl, h.files⟩
  | error fault =>
    have unread : ∀ c, Command.read text = .ok c → c.isReadOnly = true := by
      intro c hread
      by_contra hc
      have hslot := Slot.exec_eq_ok.mpr ⟨c, hread, Slot.enqueue_eq_ok.mpr
        ⟨t, ht, rfl, Bool.eq_false_iff.mpr hc, rfl⟩⟩
      simp [Database.exec, hslot, Except.map] at he
    rw [Intent.ofStatement_eq_nothing unread]
    exact h

theorem executed (h : s.Agrees root a) (hs : s.held = none) (text : String) :
    ∃ p, s.db.execute? text = some p ∧
      Agrees ⟨p.2, none⟩ root (a.enter root (.ofStatement text)) := by
  obtain ⟨hcurrent, hq⟩ := h.free hs
  rcases Database.execute?_cases hcurrent text with ⟨unread, fault, he⟩ | ⟨c, hread, hc, he⟩
  · refine ⟨_, he, ?_⟩
    rw [Intent.ofStatement_eq_nothing unread]
    exact agrees_free rfl h.files hq
  · refine ⟨_, he, ?_⟩
    simp only [Intent.ofStatement_eq_change hread hc, Account.enter, hq]
    exact agrees_free rfl (a.files_settle h.files [c]) a.queue_settle

theorem statement (h : s.Agrees root a) (line : List Char) :
    (s.statement line).2.Agrees root (a.enter root (.ofStatement (String.ofList line))) := by
  unfold Session.statement
  cases hsel : isSelection line with
  | true =>
    rw [Intent.ofStatement_eq_nothing fun c => isReadOnly_of_isSelection hsel]
    simp only [if_true]
    cases s.db.query (String.ofList line) with
    | ok answer => exact h
    | error fault => exact h
  | false =>
    simp only [Bool.false_eq_true, if_false]
    cases hs : s.held with
    | some id =>
      have hqueued := h.queued hs (String.ofList line)
      simp only
      cases he : s.db.exec id (String.ofList line) with
      | ok db =>
        rw [he] at hqueued
        exact hqueued
      | error fault =>
        rw [he] at hqueued
        exact hqueued
    | none =>
      obtain ⟨⟨outcome, db⟩, he, hafter⟩ := h.executed hs (String.ofList line)
      simp only [he]
      cases outcome with
      | ok answer => exact hafter
      | error fault => exact hafter

end Agrees

theorem quit_eq_rollback (s : Session) : s.quit.2 = s.rollback.2 := by
  unfold quit rollback
  cases s.held with
  | none => rfl
  | some id => cases hr : s.db.rollback id <;> simp only [hr]

theorem finish_eq_rollback (s : Session) : s.finish.2 = s.rollback.2 := by
  unfold finish rollback Database.abandon
  cases s.held with
  | none => rfl
  | some id => cases hr : s.db.rollback id <;> simp only [hr]

/-- What a dot command of some meaning does to a session, and whether the shell goes on. -/
def obey (s : Session) : Intent → Session × Bool
  | .begin => (s.begin.2, true)
  | .commit => (s.commit.2, true)
  | .rollback => (s.rollback.2, true)
  | .leave => (s.quit.2, false)
  | .change _ | .nothing => (s, true)

theorem dotCommand_eq_obey (s : Session) (line : List Char) :
    (s.dotCommand line).2 = s.obey (.ofDotCommand (String.ofList (nextPiece line).1)) := by
  unfold dotCommand Intent.ofDotCommand
  simp only
  generalize String.ofList (nextPiece line).1 = name
  split_ifs <;> simp_all [obey]

theorem Agrees.obey {intent : Intent} (h : s.Agrees root a) (hne : ∀ c, intent ≠ .change c) :
    (s.obey intent).1.Agrees root (a.enter root intent) ∧
      ((s.obey intent).2 = false ↔ intent = .leave) := by
  cases intent with
  | begin => exact ⟨h.begin, by simp [Session.obey]⟩
  | commit => exact ⟨h.commit, by simp [Session.obey]⟩
  | rollback => exact ⟨h.rollback, by simp [Session.obey]⟩
  | leave =>
    have hquit : (s.obey .leave).1 = s.rollback.2 := quit_eq_rollback s
    exact ⟨hquit ▸ h.rollback, by simp [Session.obey]⟩
  | nothing => exact ⟨h, by simp [Session.obey]⟩
  | change c => exact absurd rfl (hne c)

/-- One line, after which the shell goes on unless it means to leave. -/
theorem Agrees.step (h : s.Agrees root a) (line : String) :
    (s.step line).2.1.Agrees root (a.enter root (.ofLine line)) ∧
      ((s.step line).2.2 = false ↔ Intent.ofLine line = .leave) := by
  unfold Session.step
  generalize hcs : strip isBlank line.toList = cs
  split
  · have hintent : Intent.ofLine line = .nothing := by
      unfold Intent.ofLine
      rw [hcs]
    rw [hintent]
    exact ⟨h, by simp⟩
  · next rest =>
    have hintent : Intent.ofLine line =
        .ofDotCommand (String.ofList (nextPiece ('.' :: rest)).1) := by
      unfold Intent.ofLine
      rw [hcs]
      rfl
    rw [hintent, dotCommand_eq_obey]
    exact h.obey (Intent.ofDotCommand_ne_change _)
  · next _ hempty hdot =>
    have hintent : Intent.ofLine line = .ofStatement (String.ofList cs) := by
      unfold Intent.ofLine
      rw [hcs]
      split
      · exact absurd rfl hempty
      · next rest => exact absurd rfl (hdot rest)
      · rfl
    rw [hintent]
    exact ⟨h.statement cs, by simp [Intent.ofStatement_ne_leave]⟩

/-- The session after lines have been read, up to the first that ends the shell. -/
def after (s : Session) : List String → Session
  | [] => s
  | line :: lines =>
    match s.step line with
    | (_, s, true) => s.after lines
    | (_, s, false) => s

theorem run_eq_finish (s : Session) (lines : List String) :
    (s.run lines).2 = (s.after lines).finish.2 := by
  induction lines generalizing s with
  | nil => rfl
  | cons line lines ih =>
    unfold run after
    rcases s.step line with ⟨output, s', goesOn⟩
    cases goesOn with
    | true => exact ih s'
    | false => rfl

theorem Agrees.after (h : s.Agrees root a) (lines : List String) :
    (s.after lines).Agrees root ((Intent.ofLines lines).foldl (Account.enter root) a) := by
  induction lines generalizing s a with
  | nil => exact h
  | cons line lines ih =>
    have hstep := h.step line
    unfold Session.after Intent.ofLines
    rw [List.foldl_cons]
    generalize s.step line = r at hstep ⊢
    obtain ⟨output, s', goesOn⟩ := r
    obtain ⟨hstep, hleave⟩ := hstep
    cases goesOn with
    | true =>
      rw [if_neg fun hintent => Bool.noConfusion (hleave.mpr hintent)]
      exact ih hstep
    | false =>
      rw [if_pos (hleave.mp rfl)]
      exact hstep

/-- After any lines the shell holds the transaction that is open, so a statement of its own
never waits; and however the session ends, no transaction is open then, and the files are
those of the start after what the lines committed. -/
theorem run_committed (root : Root) (lines : List String) :
    let start : Session := { db := { root } }
    let s := start.after lines
    let last := (start.run lines).2
    (s.held = s.db.active? ∧ ∀ text, s.held = none → s.db.execute? text ≠ none) ∧
      last = s.finish.2 ∧ last.held = none ∧ last.db.active? = none ∧
        last.db.root.SameEntries (serially root (Account.ofLines root lines).committed) := by
  intro start s last
  have agrees : s.Agrees root (Account.ofLines root lines) :=
    Agrees.after ⟨rfl, rfl, Root.SameEntries.refl root⟩ lines
  have hlast : last = s.rollback.2 := (run_eq_finish start lines).trans (finish_eq_rollback s)
  have ended := agrees.rollback
  rw [← hlast] at ended
  have free : last.db.slot.current = none := Option.map_eq_none_iff.mp ended.queue
  have inactive : last.db.active? = none := by
    unfold Database.active?
    rw [free]
    rfl
  refine ⟨⟨agrees.held, fun text hs => ?_⟩, run_eq_finish start lines, ended.held.trans inactive,
    inactive, ended.files⟩
  rw [ne_eq, Database.execute?_eq_none, not_not]
  exact (agrees.free hs).1

end Session

end Shell

end TableStore
