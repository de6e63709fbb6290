import TableStore.Database
import TableStore.Proofs.Command.Faults
import TableStore.Proofs.Transaction.Journal

/-! Commits are all or nothing: a queue runs as if there were no journal, or the fault
of its first step that fails is reported and every entry of the root is as before. -/
namespace TableStore

open TableStore.Text TableStore.Sql TableStore.Outcome

/-- Runs commands one after another, as far as they succeed. -/
def runAll (root : Root) : List Command → Except Fault (List Answer) × Root
  | [] => (.ok [], root)
  | command :: rest =>
    match command.run root with
    | (.error fault, root) => (.error fault, root)
    | (.ok answer, root) =>
      match runAll root rest with
      | (.ok answers, root) => (.ok (answer :: answers), root)
      | (.error fault, root) => (.error fault, root)

/-- The fault of the first step that fails, where the steps are each command and,
before it, noting its table, unless that is noted already. -/
def firstFault? (root : Root) (noted : List String) : List Command → Option Fault
  | [] => none
  | command :: rest =>
    match if command.table ∈ noted then .ok none else root.peek command.table with
    | .error fault => some fault
    | .ok _ =>
      match command.run root with
      | (.error fault, _) => some fault
      | (.ok _, root) => firstFault? root (command.table :: noted) rest

/-- A queue ran to its end, or it failed and left the root as it was at the start. -/
def AllOrNothing (start now : Root) (noted : List String) (queue : List Command) :
    Except Fault (List Answer) × Root → Prop
  | (.ok answers, after) =>
    firstFault? now noted queue = none ∧ runAll now queue = (.ok answers, after)
  | (.error fault, after) =>
    firstFault? now noted queue = some fault ∧
      (∀ table cause restore, fault ≠ .restoreFailed table cause restore) ∧
      after.SameEntries start

theorem not_restoreFailed {fault : Fault} (h : fault.ofCommand = true) (table : String)
    (cause restore : Fault) : fault ≠ .restoreFailed table cause restore := by
  rintro rfl
  cases h

namespace Journal

variable {start now : Root} {j j' : Journal} {c : Command}

theorem note_fault (j : Journal) (root : Root) (table : String) :
    CommandFault (j.note root table) := by
  unfold note
  refine .ite (.ok _) (.bind (Command.tablePath_fault root table) fun _ => ?_)
  split
  · exact .ok _
  · exact .ok _
  · exact .error rfl

/-- A command whose table is noted keeps the journal covering what it changes. -/
theorem Covers.overwritten {written : Option ByteArray} (h : Covers start now j)
    (hr : c.Runnable now written) (noted : ∃ content, (c.table, content) ∈ j)
    (writable : ∀ e ∈ j, e.1 = c.table ∨ now.Writable (tableFile e.1)) :
    Covers start (now.overwritten (tableFile c.table) written) j := by
  obtain ⟨content, hmem⟩ := noted
  refine ⟨Root.path_overwritten.trans h.path, ?_, ?_, h.named, h.noted, ?_⟩
  · have hstart : start.place ≠ .plainFile := fun hp => hr.place (h.plain.mpr hp)
    rw [hr.made]
    simp [hstart]
  · intro file hfile
    rw [Root.holds?_overwritten_of_ne (hfile _ hmem), h.others file hfile]
  · intro e he
    have hfits : now.fits (tableFile e.1) = true ∧
        now.holds? (tableFile e.1) ≠ some .directory := by
      rcases writable e he with heq | hw
      · rw [heq]
        exact ⟨hr.fits, hr.free⟩
      · exact ⟨hw.fits, hw.free⟩
    refine .inl ⟨hr.made, ?_, ?_⟩
    · rw [Root.fits_congr Root.path_overwritten, hfits.1]
    · cases written with
      | none => exact hfits.2
      | some content =>
        show (now.withFile _ content).holds? _ ≠ _
        rw [Root.holds?_withFile]
        split
        · nofun
        · exact hfits.2

end Journal

section Steps

variable {start now after : Root} {j j' : Journal} {noted : List String} {c : Command}
  {rest : List Command} {fault : Fault} {answer : Answer}

theorem runQueue_of_note_error (h : j.note now c.table = .error fault) :
    runQueue now j (c :: rest) = (.error (j.undo now fault).1, (j.undo now fault).2) := by
  simp only [runQueue, h]

theorem runQueue_of_run_error (hj : j.note now c.table = .ok j')
    (h : c.run now = (.error fault, after)) :
    runQueue now j (c :: rest) = (.error (j'.undo after fault).1, (j'.undo after fault).2) := by
  simp only [runQueue, hj, h]

theorem firstFault?_of_note_error (hn : c.table ∈ noted ↔ (j.lookup c.table).isSome = true)
    (h : j.note now c.table = .error fault) : firstFault? now noted (c :: rest) = some fault := by
  rw [Journal.note_eq] at h
  split at h
  · cases h
  · next hs =>
    have hpeek : now.peek c.table = .error fault := by
      cases hp : now.peek c.table with
      | ok content =>
        rw [hp] at h
        cases h
      | error fault' =>
        rw [hp] at h
        cases h
        rfl
    simp only [firstFault?, hn, hs, hpeek, Bool.false_eq_true, if_false]

theorem firstFault?_of_note_ok (rest : List Command)
    (hn : c.table ∈ noted ↔ (j.lookup c.table).isSome = true)
    (h : j.note now c.table = .ok j') : firstFault? now noted (c :: rest) =
      match c.run now with
      | (.error fault, _) => some fault
      | (.ok _, after) => firstFault? after (c.table :: noted) rest := by
  rw [Journal.note_eq] at h
  split at h
  · next hs => simp only [firstFault?, hn, hs, if_true]
  · next hs =>
    obtain ⟨content, hpeek, -⟩ := Outcome.map_eq_ok.mp h
    simp only [firstFault?, hn, hs, hpeek, Bool.false_eq_true, if_false]

theorem AllOrNothing.cons (hj : j.note now c.table = .ok j')
    (hn : c.table ∈ noted ↔ (j.lookup c.table).isSome = true)
    (hrun : c.run now = (.ok answer, after))
    (h : AllOrNothing start after (c.table :: noted) rest (runQueue after j' rest)) :
    AllOrNothing start now noted (c :: rest) (runQueue now j (c :: rest)) := by
  have hfirst := firstFault?_of_note_ok rest hn hj
  rw [hrun] at hfirst
  simp only [runQueue, hj, hrun]
  cases hr : runQueue after j' rest with
  | mk outcome last =>
    rw [hr] at h
    cases outcome with
    | ok answers =>
      refine ⟨hfirst.trans h.1, ?_⟩
      simp only [runAll, hrun, h.2]
    | error fault => exact ⟨hfirst.trans h.1, h.2⟩

theorem allOrNothing_of_undo (hc : Journal.Covers start after j) (hf : fault.ofCommand = true)
    (h : firstFault? now noted (c :: rest) = some fault) :
    AllOrNothing start now noted (c :: rest)
      (.error (j.undo after fault).1, (j.undo after fault).2) := by
  obtain ⟨last, hu, hs⟩ := hc.undo fault
  rw [hu]
  exact ⟨h, not_restoreFailed hf, hs⟩

end Steps

def Fault.ofCommit : Fault → Bool
  | .restoreFailed .. => true
  | fault => fault.ofCommand

theorem Fault.ofCommit_of_ofCommand {fault : Fault} (h : fault.ofCommand = true) :
    fault.ofCommit = true := by
  cases fault with
  | restoreFailed => rfl
  | _ => exact h

theorem Journal.undo_fault (j : Journal) (root : Root) {cause : Fault}
    (h : cause.ofCommand = true) : (j.undo root cause).1.ofCommit = true := by
  unfold undo
  split
  · exact Fault.ofCommit_of_ofCommand h
  · rfl

/-- A commit ends in a fault of a command, or of what was to be put back. -/
theorem runQueue_fault (root : Root) (j : Journal) (queue : List Command) :
    FailsIn (fun fault => fault.ofCommit = true) (runQueue root j queue).1 := by
  induction queue generalizing root j with
  | nil => exact .ok _
  | cons c rest ih =>
    cases hnote : j.note root c.table with
    | error fault =>
      rw [runQueue_of_note_error hnote]
      exact .error (j.undo_fault root (Journal.note_fault j root c.table fault hnote))
    | ok noted =>
      cases hrun : c.run root with
      | mk outcome after =>
        cases outcome with
        | error fault =>
          rw [runQueue_of_run_error hnote hrun]
          exact .error (noted.undo_fault after (c.run_fault root fault (congrArg Prod.fst hrun)))
        | ok answer =>
          have rested := ih after noted
          simp only [runQueue, hnote, hrun]
          generalize runQueue after noted rest = ran at rested ⊢
          obtain ⟨fault | answers, last⟩ := ran
          · exact .error (rested fault rfl)
          · exact .ok _

/-- The run of a queue from any point on. The journal covers what has changed since the
start; as long as there is no directory, it is empty. -/
theorem runQueue_allOrNothing {start now : Root} {j : Journal} {noted : List String}
    {queue : List Command} (hc : Journal.Covers start now j) (hj : now.place = .nothing → j = [])
    (hn : ∀ table, table ∈ noted ↔ (j.lookup table).isSome = true)
    (hq : ∀ c ∈ queue.head?, ¬c.LeavesDirectory now) :
    AllOrNothing start now noted queue (runQueue now j queue) := by
  -- Only the first command can find no directory: one that succeeds leaves the root with it.
  induction queue generalizing now j noted with
  | nil => exact ⟨rfl, rfl⟩
  | cons c rest ih =>
    cases hnote : j.note now c.table with
    | error fault =>
      rw [runQueue_of_note_error hnote]
      exact allOrNothing_of_undo hc (Journal.note_fault j now c.table fault hnote)
        (firstFault?_of_note_error (hn c.table) hnote)
    | ok j' =>
      obtain ⟨hc', hmem, hkeys⟩ := hc.note hnote
      cases he : c.effect now with
      | error fault =>
        have hrun : c.run now = (.error fault, now) := by
          rcases Command.run_of_effect_error he with hr | ⟨hl, -⟩
          · exact hr
          · exact absurd hl (hq c rfl)
        have hfirst := firstFault?_of_note_ok rest (hn c.table) hnote
        rw [hrun] at hfirst
        rw [runQueue_of_run_error hnote hrun]
        exact allOrNothing_of_undo hc' (Command.effect_fault now c fault he) hfirst
      | ok p =>
        obtain ⟨answer, written⟩ := p
        have hr := Command.runnable_of_effect he
        -- What was noted before this command was noted in a root that has its directory.
        have writable : ∀ e ∈ j', e.1 = c.table ∨ now.Writable (tableFile e.1) := by
          intro e hmem'
          rcases hkeys e hmem' with hmem' | heq
          · rcases hc.restorable e hmem' with hw | ⟨-, hp⟩
            · exact .inr hw
            · rw [hj hp] at hmem'
              cases hmem'
          · exact .inl heq
        have made : (now.overwritten (tableFile c.table) written).place ≠ .nothing := by
          rw [hr.made]
          nofun
        refine AllOrNothing.cons hnote (hn c.table) (Command.run_of_effect_ok he) ?_
        refine ih (hc'.overwritten hr hmem writable) (fun hp => absurd hp made) ?_ ?_
        · intro table
          rw [List.mem_cons, Journal.isSome_lookup_note hnote, hn table]
        · exact fun d _ hl => absurd hl.1 made

section LeavesDirectory

variable {root : Root} {c : Command} (h : c.LeavesDirectory root)
include h

theorem peek_of_leavesDirectory : root.peek c.table = .ok none := by
  obtain ⟨hp, -, hn, -⟩ := h
  unfold Root.peek
  rw [root.tablePath_of_isTableName hn, Root.readFile_eq_missing.mpr (.inl hp)]
  rfl

theorem firstFault?_of_leavesDirectory (rest : List Command) :
    firstFault? root [] (c :: rest) = some (.disk .nameTooLong) := by
  simp only [firstFault?, List.not_mem_nil, if_false, peek_of_leavesDirectory h,
    (Command.run_of_leavesDirectory h).2]

/-- A first command that is refused only after it made the directory of the root: its
table was noted as missing, and removing it fails for the length of its name. -/
theorem runQueue_of_leavesDirectory (rest : List Command) : runQueue root [] (c :: rest) =
    (.error (.restoreFailed c.table (.disk .nameTooLong) (.disk .nameTooLong)), root.made) := by
  have hnote : Journal.note [] root c.table = .ok [(c.table, none)] := by
    rw [Journal.note_eq, peek_of_leavesDirectory h]
    rfl
  have hrun := (Command.run_of_leavesDirectory h).2
  obtain ⟨-, hf, hn, -⟩ := h
  have unfit : root.made.fits (tableFile c.table) = false := by
    rw [Root.fits_congr Root.path_made, hf]
  have hrestore : Journal.restore root.made c.table none = .error (.disk .nameTooLong) := by
    unfold Journal.restore
    rw [root.made.tablePath_of_isTableName hn]
    simp only [Outcome.ok_bind, Root.removeFile_of_not_fits rfl unfit]
  rw [runQueue_of_run_error hnote hrun]
  simp only [Journal.undo, Journal.restoreAll, hrestore]

end LeavesDirectory

section Commits

variable {root after : Root} {queue : List Command} {answers : List Answer} {fault : Fault}

theorem runQueue_cases (root : Root) (queue : List Command) :
    AllOrNothing root root [] queue (runQueue root [] queue) ∨
      ∃ c rest, queue = c :: rest ∧ c.LeavesDirectory root := by
  by_cases hq : ∀ c ∈ queue.head?, ¬c.LeavesDirectory root
  · exact .inl (runQueue_allOrNothing (Journal.covers_nil root) (fun _ => rfl)
      (fun table => by simp) hq)
  · push Not at hq
    obtain ⟨c, hc, hl⟩ := hq
    obtain ⟨rest, rfl⟩ := List.head?_eq_some_iff.mp hc
    exact .inr ⟨c, rest, rfl, hl⟩

theorem runAll_of_runQueue_ok (h : runQueue root [] queue = (.ok answers, after)) :
    runAll root queue = (.ok answers, after) := by
  rcases runQueue_cases root queue with whole | ⟨c, rest, rfl, hl⟩
  · rw [h] at whole
    exact whole.2
  · rw [runQueue_of_leavesDirectory hl] at h
    cases h

theorem peek_of_runnable {c : Command} {written : Option ByteArray} (h : c.Runnable root written) :
    ∃ content, root.peek c.table = .ok content := by
  unfold Root.peek
  rw [root.tablePath_of_isTableName h.named, Outcome.ok_bind]
  rcases Root.readFile_cases h.place h.fits h.free with ⟨content, hr⟩ | hr
  · rw [hr]
    exact ⟨some content, rfl⟩
  · rw [hr]
    exact ⟨none, rfl⟩

theorem runAll_cons_eq_ok {c : Command} : runAll root (c :: queue) = (.ok answers, after) ↔
    ∃ answer next others, c.run root = (.ok answer, next) ∧
      runAll next queue = (.ok others, after) ∧ answers = answer :: others := by
  simp only [runAll]
  cases hrun : c.run root with
  | mk outcome next =>
    cases outcome with
    | error fault => simp
    | ok answer =>
      cases hrest : runAll next queue with
      | mk outcome last => cases outcome <;> simp [hrest, and_comm, eq_comm]

theorem firstFault?_of_runAll (h : runAll root queue = (.ok answers, after))
    (noted : List String) : firstFault? root noted queue = none := by
  induction queue generalizing root answers noted with
  | nil => rfl
  | cons c rest ih =>
    obtain ⟨answer, next, others, hrun, hrest, -⟩ := runAll_cons_eq_ok.mp h
    obtain ⟨written, heffect⟩ := Command.run_eq_ok.mp (congrArg Prod.fst hrun)
    obtain ⟨content, hpeek⟩ := peek_of_runnable (Command.runnable_of_effect heffect)
    by_cases hnoted : c.table ∈ noted
    · simp only [firstFault?, hnoted, if_true, hrun, ih hrest]
    · simp only [firstFault?, hnoted, if_false, hpeek, hrun, ih hrest]

/-- The journal gives a queue no reason to fail. -/
theorem runQueue_eq_ok : runQueue root [] queue = (.ok answers, after) ↔
    runAll root queue = (.ok answers, after) := by
  refine ⟨runAll_of_runQueue_ok, fun h => ?_⟩
  have faultless := firstFault?_of_runAll h []
  rcases runQueue_cases root queue with whole | ⟨c, rest, rfl, hl⟩
  · cases hrun : runQueue root [] queue with
    | mk outcome last =>
      rw [hrun] at whole
      cases outcome with
      | error fault => cases whole.1.symm.trans faultless
      | ok answers' => exact whole.2.symm.trans h
  · cases (firstFault?_of_leavesDirectory hl rest).symm.trans faultless

/-- A queue of one command succeeds exactly if the command does: what the command needs is
enough to note its table. -/
theorem runQueue_single {c : Command} : runQueue root [] [c] = (.ok answers, after) ↔
    ∃ answer written, c.effect root = .ok (answer, written) ∧ answers = [answer] ∧
      after = root.overwritten (tableFile c.table) written := by
  constructor
  · intro h
    have hall := runAll_of_runQueue_ok h
    unfold runAll at hall
    cases he : c.effect root with
    | error fault =>
      have hrun : ∃ root', c.run root = (.error fault, root') := by
        rcases Command.run_of_effect_error he with hr | ⟨-, hr⟩ <;> exact ⟨_, hr⟩
      obtain ⟨root', hrun⟩ := hrun
      rw [hrun] at hall
      cases hall
    | ok p =>
      rw [Command.run_of_effect_ok he] at hall
      cases hall
      exact ⟨p.1, p.2, rfl, rfl, rfl⟩
  · rintro ⟨answer, written, he, rfl, rfl⟩
    obtain ⟨content, hpeek⟩ := peek_of_runnable (Command.runnable_of_effect he)
    have hnote : Journal.note [] root c.table = .ok [(c.table, content)] := by
      rw [Journal.note_eq, hpeek]
      rfl
    simp only [runQueue, hnote, Command.run_of_effect_ok he]

/-- A commit that fails leaves every file as it was, also if the restore is said to fail. -/
theorem sameEntries_of_runQueue_error (h : runQueue root [] queue = (.error fault, after)) :
    after.SameEntries root := by
  rcases runQueue_cases root queue with whole | ⟨c, rest, rfl, hl⟩
  · rw [h] at whole
    exact whole.2.2
  · rw [runQueue_of_leavesDirectory hl] at h
    cases h
    refine Root.sameEntries_made ?_
    rw [hl.1]
    nofun

section AgreeOn

variable {names : String → Prop} {r s : Root}

/-- A queue answers the same, and does the same, on roots that agree on its tables. -/
theorem agreeOn_runAll (h : Root.AgreeOn names r s) (hq : ∀ c ∈ queue, names (tableFile c.table)) :
    (runAll r queue).1 = (runAll s queue).1 ∧
      Root.AgreeOn names (runAll r queue).2 (runAll s queue).2 := by
  induction queue generalizing r s with
  | nil => exact ⟨rfl, h⟩
  | cons c rest ih =>
    obtain ⟨hc, hrest⟩ := List.forall_mem_cons.mp hq
    obtain ⟨hout, hroot⟩ := Command.agreeOn_run h hc
    unfold runAll
    cases hr : c.run r with
    | mk out r' =>
      cases hs : c.run s with
      | mk out' s' =>
        rw [hr, hs] at hout hroot
        cases hout
        cases out with
        | error fault => exact ⟨rfl, hroot⟩
        | ok answer =>
          obtain ⟨hout', hroot'⟩ := ih hroot hrest
          simp only
          cases hr' : runAll r' rest with
          | mk last r'' =>
            cases hs' : runAll s' rest with
            | mk last' s'' =>
              rw [hr', hs'] at hout' hroot'
              cases hout'
              cases last with
              | error fault => exact ⟨rfl, hroot'⟩
              | ok answers => exact ⟨rfl, hroot'⟩

theorem runAll_congr (h : r.SameEntries s) (queue : List Command) :
    (runAll r queue).1 = (runAll s queue).1 ∧
      (runAll r queue).2.SameEntries (runAll s queue).2 :=
  (agreeOn_runAll (h.agreeOn _) fun _ _ => trivial).imp_right Root.AgreeOn.sameEntries

end AgreeOn

end Commits

namespace Database

variable {db : Database} {t : Transaction}

/-- The commit of an open transaction frees the slot and is all or nothing. -/
def CommitsWhole (db : Database) (t : Transaction) : Prop :=
  (db.commit t.id).2.slot.current = none ∧
    AllOrNothing db.root db.root [] t.queue ((db.commit t.id).1, (db.commit t.id).2.root)

theorem commit_eq (h : db.slot.current = some t) : db.commit t.id =
    ((runQueue db.root [] t.queue).1,
      ⟨(runQueue db.root [] t.queue).2, { db.slot with current := none }⟩) := by
  unfold commit Slot.take Slot.find
  rw [h]
  simp only [if_true]
  rfl

theorem not_commitsWhole {table : String} {cause restore : Fault}
    (h : (db.commit t.id).1 = .error (.restoreFailed table cause restore)) :
    ¬db.CommitsWhole t := by
  rintro ⟨-, whole⟩
  rw [h] at whole
  exact whole.2.1 _ _ _ rfl

/-- Only a first command that makes the directory of an absent root, and then has a name
too long for a file, ends in a restore that fails, though there is nothing to restore. This
is about roots whose path leaves room for the temporary file that a rewrite takes: where it
leaves none, no file is changed, but the restore of one that was noted fails as well. -/
theorem commitsWhole_iff (db : Database) (t : Transaction) (h : db.slot.current = some t) :
    db.CommitsWhole t ↔ ∀ c ∈ t.queue.head?, ¬c.LeavesDirectory db.root := by
  constructor
  · intro whole c hc hl
    obtain ⟨rest, hq⟩ := List.head?_eq_some_iff.mp hc
    have failed : (db.commit t.id).1 =
        .error (.restoreFailed c.table (.disk .nameTooLong) (.disk .nameTooLong)) := by
      rw [commit_eq h, hq, runQueue_of_leavesDirectory hl]
    exact not_commitsWhole failed whole
  · intro hq
    unfold CommitsWhole
    rw [commit_eq h]
    exact ⟨rfl, runQueue_allOrNothing (Journal.covers_nil db.root) (fun _ => rfl)
      (fun table => by simp) hq⟩

/-- A commit that rewrites one table and makes another before it fails. -/
theorem commitsWhole_rewritten_and_made :
    let root : Root :=
      ⟨"db", .directory (Directory.empty.put "t.csv" (.file "a\nint64\n1\n".toUTF8))⟩
    let queue : List Command := [.delete "t" none, .create "u" ["b"] ["string"],
      .insert "t" ["a"] [["x"]]]
    let db : Database := ⟨root, ⟨some ⟨1, queue⟩, 2⟩⟩
    db.slot.current = some ⟨1, queue⟩ ∧ db.CommitsWhole ⟨1, queue⟩ ∧
      firstFault? root [] queue = some (.typeMismatch "a" "int64" "x") := by
  intro root queue db
  have directory : root.place ≠ .nothing := nofun
  refine ⟨rfl, (commitsWhole_iff db ⟨1, queue⟩ rfl).mpr fun c _ hl => directory hl.1, ?_⟩
  decide

def letters (n : Nat) : String :=
  String.ofList (List.replicate n 'a')

theorem utf8ByteSize_letters (n : Nat) : (letters n).utf8ByteSize = n := by
  induction n with
  | zero => rfl
  | succ n ih =>
    unfold letters at ih ⊢
    rw [List.replicate_succ, ← List.singleton_append, String.ofList_append,
      String.utf8ByteSize_append, ih, Nat.add_comm]
    rfl

theorem isTableName_letters (n : Nat) : isTableName (letters (n + 1)) = true := by
  have nonempty : (letters (n + 1)).isEmpty = false := by
    simp [String.isEmpty, utf8ByteSize_letters]
  unfold isTableName
  rw [nonempty]
  simp [letters]

/-- With the extension, 252 letters are one byte too long for a file. -/
theorem fits_letters (root : Root) : root.fits (tableFile (letters 252)) = false := by
  have long : fitsFileName (tableFile (letters 252)) = false := by
    unfold fitsFileName tableFile
    rw [String.utf8ByteSize_append, String.utf8ByteSize_append, utf8ByteSize_letters]
    rfl
  unfold Root.fits
  rw [long]
  rfl

theorem commit_absent_root_restoreFailed :
    let queue : List Command := [.create (letters 252) ["a"] ["int64"]]
    let db : Database := ⟨⟨"db", .nothing⟩, ⟨some ⟨1, queue⟩, 2⟩⟩
    firstFault? db.root [] queue = some (.disk .nameTooLong) ∧
      (db.commit 1).1 =
        .error (.restoreFailed (letters 252) (.disk .nameTooLong) (.disk .nameTooLong)) ∧
      ¬db.CommitsWhole ⟨1, queue⟩ := by
  intro queue db
  have hl : (Command.create (letters 252) ["a"] ["int64"]).LeavesDirectory db.root :=
    ⟨rfl, fits_letters db.root, isTableName_letters 251, _, _, _, rfl, rfl⟩
  have hc : (db.commit 1).1 =
      .error (.restoreFailed (letters 252) (.disk .nameTooLong) (.disk .nameTooLong)) := by
    rw [commit_eq (t := ⟨1, queue⟩) rfl, runQueue_of_leavesDirectory hl]
    rfl
  exact ⟨firstFault?_of_leavesDirectory hl [], hc, not_commitsWhole hc⟩

end Database

end TableStore
