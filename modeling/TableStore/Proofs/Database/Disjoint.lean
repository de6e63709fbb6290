import TableStore.Proofs.Database.Single

/-! Transactions on different tables do not notice each other. A commit looks at the files of
its tables and changes no other, so two such commits have the same outcomes and leave the same
files in either order, also where one or both of them fail. -/
namespace TableStore

open TableStore.Text TableStore.Sql

namespace Root

variable {names : String → Prop} {r s : Root} {table : String}

theorem AgreeOn.readFile (h : AgreeOn names r s) (hr : r.place ≠ .nothing)
    (hs : s.place ≠ .nothing) {name : String} (hn : names name) :
    r.readFile name = s.readFile name := by
  have hholds := h.entries name hn
  unfold holds? at hholds
  unfold Root.readFile
  rw [fits_congr h.path]
  rcases r.place_cases with hp | hp | hp
  · rw [hp, h.plain.mp hp]
  · exact absurd hp hr
  · rcases s.place_cases with hp' | hp' | hp'
    · rw [h.plain.mpr hp'] at hp
      cases hp
    · exact absurd hp' hs
    · rw [hp, hp']
      simp only [hholds]

theorem AgreeOn.peek (h : AgreeOn names r s) (hr : r.place ≠ .nothing) (hs : s.place ≠ .nothing)
    (hn : names (tableFile table)) : r.peek table = s.peek table := by
  unfold Root.peek tablePath
  rw [h.readFile hr hs hn, h.path]

theorem place_writeFile {name : String} {content : ByteArray}
    (h : r.writeFile name content = .ok s) : s.place ≠ .nothing := by
  unfold writeFile at h
  repeat' split at h
  all_goals cases h
  all_goals nofun

theorem place_removeFile {name : String} (h : r.removeFile name = .ok s) :
    s.place ≠ .nothing := by
  unfold removeFile at h
  repeat' split at h
  all_goals cases h
  all_goals nofun

end Root

/-- What stands in the place of a root stays there. -/
theorem Command.place_run {root : Root} {c : Command} (h : root.place ≠ .nothing) :
    (c.run root).2.place ≠ .nothing := by
  cases he : c.effect root with
  | ok p =>
    rw [run_of_effect_ok he, (runnable_of_effect he).made]
    nofun
  | error fault =>
    rcases run_of_effect_error he with hr | ⟨hl, -⟩
    · rwa [hr]
    · exact absurd hl.1 h

namespace Journal

variable {root after : Root} {table : String} {content : Option ByteArray}

theorem place_restore (h : restore root table content = .ok after) (hp : root.place ≠ .nothing) :
    after.place ≠ .nothing := by
  unfold restore at h
  obtain ⟨-, -, h⟩ := Outcome.bind_eq_ok.mp h
  split at h
  · split at h
    · next hw =>
      cases h
      exact Root.place_writeFile hw
    · cases h
  · split at h
    · next hr =>
      cases h
      exact Root.place_removeFile hr
    · cases h
      exact hp
    · cases h

theorem place_restoreAll {root : Root} (h : root.place ≠ .nothing) (j : Journal) :
    (restoreAll root j).2.place ≠ .nothing := by
  induction j generalizing root with
  | nil => exact h
  | cons e j ih =>
    unfold restoreAll
    cases hr : restore root e.1 e.2 with
    | ok after => exact ih (place_restore hr h)
    | error fault => exact ih h

theorem place_undo {root : Root} (h : root.place ≠ .nothing) (j : Journal) (cause : Fault) :
    (j.undo root cause).2.place ≠ .nothing := by
  have restored := place_restoreAll h j
  unfold undo
  generalize restoreAll root j = r at restored ⊢
  obtain ⟨_ | _, after⟩ := r <;> exact restored

end Journal

theorem place_runQueue {root : Root} (h : root.place ≠ .nothing) (j : Journal)
    (queue : List Command) : (runQueue root j queue).2.place ≠ .nothing := by
  induction queue generalizing root j with
  | nil => exact h
  | cons c rest ih =>
    cases hnote : j.note root c.table with
    | error fault =>
      rw [runQueue_of_note_error hnote]
      exact Journal.place_undo h j fault
    | ok noted =>
      have ran := Command.place_run (c := c) h
      cases hrun : c.run root with
      | mk outcome after =>
        rw [hrun] at ran
        cases outcome with
        | error fault =>
          rw [runQueue_of_run_error hnote hrun]
          exact Journal.place_undo ran noted fault
        | ok answer =>
          have rested : (runQueue after noted rest).2.place ≠ .nothing := ih ran noted
          simp only [runQueue, hnote, hrun]
          generalize runQueue after noted rest = r at rested ⊢
          obtain ⟨_ | _, last⟩ := r <;> exact rested

section AgreeOn

variable {names : String → Prop} {r s : Root} {queue : List Command}

theorem agreeOn_firstFault? (h : Root.AgreeOn names r s) (hr : r.place ≠ .nothing)
    (hs : s.place ≠ .nothing) (hq : ∀ c ∈ queue, names (tableFile c.table))
    (noted : List String) : firstFault? r noted queue = firstFault? s noted queue := by
  induction queue generalizing r s noted with
  | nil => rfl
  | cons c rest ih =>
    obtain ⟨hc, hrest⟩ := List.forall_mem_cons.mp hq
    obtain ⟨hout, hroot⟩ := Command.agreeOn_run h hc
    have hr' := Command.place_run (c := c) hr
    have hs' := Command.place_run (c := c) hs
    unfold firstFault?
    rw [h.peek hr hs hc]
    generalize c.run r = ran at hout hroot hr' ⊢
    generalize c.run s = ran' at hout hroot hs' ⊢
    obtain ⟨out, r'⟩ := ran
    obtain ⟨out', s'⟩ := ran'
    cases hout
    cases out with
    | error fault => rfl
    | ok answer =>
      simp only
      rw [ih hroot hr' hs' hrest]

/-- A commit has the same outcome, and does the same, on roots that agree on its tables. -/
theorem agreeOn_runQueue (h : Root.AgreeOn names r s) (hr : r.place ≠ .nothing)
    (hs : s.place ≠ .nothing) (hq : ∀ c ∈ queue, names (tableFile c.table)) :
    (runQueue r [] queue).1 = (runQueue s [] queue).1 ∧
      Root.AgreeOn names (runQueue r [] queue).2 (runQueue s [] queue).2 := by
  have whole {root : Root} (present : root.place ≠ .nothing) :
      AllOrNothing root root [] queue (runQueue root [] queue) := by
    rcases runQueue_cases root queue with whole | ⟨c, rest, -, hl⟩
    · exact whole
    · exact absurd hl.1 present
  have hwr := whole hr
  have hws := whole hs
  have hfault := agreeOn_firstFault? h hr hs hq []
  obtain ⟨hout, hroot⟩ := agreeOn_runAll h hq
  generalize runQueue r [] queue = ran at hwr ⊢
  generalize runQueue s [] queue = ran' at hws ⊢
  obtain ⟨outcome, r'⟩ := ran
  obtain ⟨outcome', s'⟩ := ran'
  cases outcome with
  | ok answers =>
    obtain ⟨hr, hrun⟩ := hwr
    cases outcome' with
    | ok answers' =>
      rw [hrun, hws.2] at hout hroot
      exact ⟨hout, hroot⟩
    | error fault' => cases hr.symm.trans (hfault.trans hws.1)
  | error fault =>
    obtain ⟨hr, -, same⟩ := hwr
    cases outcome' with
    | ok answers' => cases hr.symm.trans (hfault.trans hws.1)
    | error fault' =>
      obtain ⟨hs, -, same'⟩ := hws
      cases hr.symm.trans (hfault.trans hs)
      exact ⟨rfl, (same.agreeOn names).trans (h.trans (same'.agreeOn names).symm)⟩

theorem agreeOn_runAll_self (root : Root) (hq : ∀ c ∈ queue, ¬names (tableFile c.table)) :
    Root.AgreeOn names (runAll root queue).2 root := by
  induction queue generalizing root with
  | nil => exact .refl names root
  | cons c rest ih =>
    obtain ⟨hc, hrest⟩ := List.forall_mem_cons.mp hq
    have hrun := Command.agreeOn_run_self root hc
    unfold runAll
    generalize c.run root = ran at hrun ⊢
    obtain ⟨fault | answer, next⟩ := ran
    · exact hrun
    · have hnext := ih next hrest
      simp only
      generalize runAll next rest = ran at hnext ⊢
      obtain ⟨fault | answers, last⟩ := ran <;> exact hnext.trans hrun

/-- A commit leaves every file but those of its tables as it is. -/
theorem agreeOn_runQueue_self (root : Root) (hq : ∀ c ∈ queue, ¬names (tableFile c.table)) :
    Root.AgreeOn names (runQueue root [] queue).2 root := by
  cases hr : runQueue root [] queue with
  | mk outcome after =>
    cases outcome with
    | ok answers =>
      have hall := agreeOn_runAll_self root hq
      rwa [runQueue_eq_ok.mp hr] at hall
    | error fault => exact (sameEntries_of_runQueue_error hr).agreeOn names

end AgreeOn

/-- The files of the tables that a queue is about. -/
def IsFileOf (queue : List Command) (name : String) : Prop :=
  ∃ c ∈ queue, name = tableFile c.table

theorem not_isFileOf {p q : List Command} (disjoint : ∀ c ∈ p, ∀ d ∈ q, c.table ≠ d.table) :
    ∀ d ∈ q, ¬IsFileOf p (tableFile d.table) := by
  rintro d hd ⟨c, hc, hfile⟩
  exact disjoint c hc d hd (tableFile_injective hfile.symm)

theorem holds?_runQueue_of_not (root : Root) {queue : List Command} {name : String}
    (h : ¬IsFileOf queue name) : (runQueue root [] queue).2.holds? name = root.holds? name := by
  have same : Root.AgreeOn (· = name) (runQueue root [] queue).2 root :=
    agreeOn_runQueue_self root fun c hc heq => h ⟨c, hc, heq.symm⟩
  exact same.entries name rfl

/-- Two queues in one order and in the other: what the first leaves, the second finds. -/
theorem runQueue_comm {root : Root} (hroot : root.place ≠ .nothing) {p q : List Command}
    (disjoint : ∀ c ∈ p, ∀ d ∈ q, c.table ≠ d.table) :
    (runQueue (runQueue root [] q).2 [] p).1 = (runQueue root [] p).1 ∧
      Root.AgreeOn (IsFileOf p) (runQueue (runQueue root [] q).2 [] p).2
        (runQueue (runQueue root [] p).2 [] q).2 := by
  have before := agreeOn_runQueue_self root (not_isFileOf disjoint)
  have after := agreeOn_runQueue_self (runQueue root [] p).2 (not_isFileOf disjoint)
  obtain ⟨hout, hfiles⟩ := agreeOn_runQueue before (place_runQueue hroot [] q) hroot
    fun c hc => ⟨c, hc, rfl⟩
  exact ⟨hout, hfiles.trans after.symm⟩

namespace Database

/-- Commits a queue in a transaction that was opened for it. -/
def settle (db : Database) (queue : List Command) : Except Fault (List Answer) × Database :=
  commit ⟨db.root, db.slot.opened queue⟩ db.slot.nextId

/-- Transactions on different tables have the same outcomes and leave the same files in
either order, whether each of them succeeds or fails. -/
theorem settle_comm {db : Database} (hroot : db.root.place ≠ .nothing) {p q : List Command}
    (disjoint : ∀ c ∈ p, ∀ d ∈ q, c.table ≠ d.table) :
    ((db.settle q).2.settle p).1 = (db.settle p).1 ∧
      ((db.settle p).2.settle q).1 = (db.settle q).1 ∧
      ((db.settle p).2.settle q).2.slot = ((db.settle q).2.settle p).2.slot ∧
      ((db.settle p).2.settle q).2.root.SameEntries ((db.settle q).2.settle p).2.root := by
  simp only [settle, commit_opened]
  have disjoint' : ∀ d ∈ q, ∀ c ∈ p, d.table ≠ c.table :=
    fun d hd c hc => (disjoint c hc d hd).symm
  obtain ⟨hp, filesP⟩ := runQueue_comm hroot disjoint
  obtain ⟨hq, filesQ⟩ := runQueue_comm hroot disjoint'
  refine ⟨hp, hq, trivial, filesP.path.symm, filesP.plain.symm, fun name => ?_⟩
  by_cases isP : IsFileOf p name
  · exact (filesP.entries name isP).symm
  by_cases isQ : IsFileOf q name
  · exact filesQ.entries name isQ
  -- No command is about the file, so it is as at the start in either order.
  rw [holds?_runQueue_of_not _ isQ, holds?_runQueue_of_not _ isP, holds?_runQueue_of_not _ isP,
    holds?_runQueue_of_not _ isQ]

/-- One transaction empties a table, the other makes a table before it fails. -/
theorem settle_comm_refused :
    let root : Root :=
      ⟨"db", .directory (Directory.empty.put "t.csv" (.file "a\nint64\n1\n".toUTF8))⟩
    let db : Database := { root }
    let p : List Command := [.delete "t" none]
    let q : List Command := [.create "u" ["b"] ["int64"], .insert "u" ["b"] [["x"]]]
    (db.settle p).1 = .ok [Command.counted 1 "deleted"] ∧
      (db.settle q).1 = .error (.typeMismatch "b" "int64" "x") ∧
      ((db.settle q).2.settle p).1 = (db.settle p).1 ∧
      ((db.settle p).2.settle q).1 = (db.settle q).1 ∧
      ((db.settle p).2.settle q).2.slot = ((db.settle q).2.settle p).2.slot ∧
      ((db.settle p).2.settle q).2.root.SameEntries ((db.settle q).2.settle p).2.root := by
  intro root db p q
  have directory : db.root.place ≠ .nothing := nofun
  exact ⟨by decide, by decide, settle_comm directory (by decide)⟩

end Database

end TableStore
