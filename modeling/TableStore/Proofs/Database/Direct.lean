import TableStore.Proofs.Database.Single
import TableStore.Proofs.Sql.Statement

/-! Statements that change a table, each in a transaction of its own. It answers and does what
the statement does without any transaction: noting the table refuses nothing that the command
would not refuse, and undoing gives back what a failed command has left alone. -/
namespace TableStore

open TableStore.Text TableStore.Sql

/-- The path of a table's file can be looked up, and there is nothing or a regular file. -/
structure Root.Regular (r : Root) (table : String) : Prop where
  path : fitsPath (joinPath r.path (tableFile table)) = true
  entry : r.readFile (tableFile table) = .error .missing ∨
    ∃ content, r.readFile (tableFile table) = .ok content

variable {root : Root} {table text : String} {c : Command}

/-- With the extension, 251 bytes are as many as a file name holds. -/
theorem Root.Regular.fits (h : root.Regular table) (short : table.utf8ByteSize ≤ 251) :
    root.fits (tableFile table) = true := by
  have hname : fitsFileName (tableFile table) = true := by
    have extension : ".".utf8ByteSize + tableExtension.utf8ByteSize = 4 := by decide
    unfold fitsFileName tableFile
    rw [String.utf8ByteSize_append, String.utf8ByteSize_append, decide_eq_true_iff]
    omega
  unfold Root.fits
  rw [hname, h.path]
  rfl

theorem Root.Regular.peek (h : root.Regular table) (named : isTableName table = true) :
    ∃ content, root.peek table = .ok content := by
  unfold Root.peek
  rw [root.tablePath_of_isTableName named, Outcome.ok_bind]
  rcases h.entry with missing | ⟨content, hread⟩
  · rw [missing]
    exact ⟨none, rfl⟩
  · rw [hread]
    exact ⟨some content, rfl⟩

theorem Command.isTableName_of_read (h : Command.read text = .ok c) :
    isTableName c.table = true := by
  obtain ⟨s, hs, rfl⟩ := Outcome.map_eq_ok.mp h
  obtain ⟨ts, ending, -, -, produced⟩ := Statement.read_eq_ok.mp hs
  cases produced <;> exact isTableName_iff.mpr ‹IsName _›

/-- A queue of one command whose table can be noted is that command. -/
theorem runQueue_eq_run {content : Option ByteArray} (peeked : root.peek c.table = .ok content)
    (whole : ¬c.LeavesDirectory root) :
    (runQueue root [] [c]).1.map (·.getLastD {}) = (c.run root).1 ∧
      (runQueue root [] [c]).2.SameEntries (c.run root).2 := by
  rcases runQueue_cases root [c] with cases | ⟨d, rest, hqueue, hl⟩
  · cases hrun : runQueue root [] [c] with
    | mk outcome after =>
      rw [hrun] at cases
      cases outcome with
      | ok answers =>
        obtain ⟨answer, next, others, hc, hrest, rfl⟩ := runAll_cons_eq_ok.mp cases.2
        cases hrest
        rw [hc]
        exact ⟨rfl, Root.SameEntries.refl _⟩
      | error fault =>
        obtain ⟨hfirst, -, same⟩ := cases
        have failed : (c.run root).1 = .error fault := by
          simp only [firstFault?, List.not_mem_nil, if_false, peeked] at hfirst
          split at hfirst
          · next hc =>
            cases hfirst
            rw [hc]
          · cases hfirst
        exact ⟨failed.symm, same.trans (Command.sameEntries_of_run_error failed).symm⟩
  · cases hqueue
    exact absurd hl whole

namespace Database

variable {db : Database}

/-- A statement in a transaction of its own gives the answer or the fault of the statement run
directly, leaves the same files and frees the slot; a text that is no statement gives its fault
and changes nothing, either way. -/
theorem execute?_eq_runText (free : db.slot.current = none)
    (changing : ∀ c, Command.read text = .ok c → c.isReadOnly = false)
    (short : ∀ c, Command.read text = .ok c → c.table.utf8ByteSize ≤ 251)
    (regular : ∀ c, Command.read text = .ok c → db.root.Regular c.table) :
    ∃ outcome after, db.execute? text = some (outcome, after) ∧ after.slot.current = none ∧
      outcome = (db.runText text).1 ∧ after.root.SameEntries (db.runText text).2.root ∧
      ∀ fault, Command.read text = .error fault →
        outcome = .error fault ∧ after.root = db.root ∧ (db.runText text).2.root = db.root := by
  unfold runText
  cases hread : Command.read text with
  | error fault =>
    refine ⟨_, _, execute?_of_read_error free hread, rfl, rfl, Root.SameEntries.refl _, ?_⟩
    rintro _ ⟨⟩
    exact ⟨rfl, rfl, rfl⟩
  | ok c =>
    have hregular := regular c hread
    obtain ⟨content, peeked⟩ := hregular.peek (Command.isTableName_of_read hread)
    have whole : ¬c.LeavesDirectory db.root := by
      rintro ⟨-, unfit, -⟩
      cases (hregular.fits (short c hread)).symm.trans unfit
    obtain ⟨houtcome, same⟩ := runQueue_eq_run peeked whole
    rcases execute?_cases free text with ⟨reading, -⟩ | ⟨d, hd, -, hexecute⟩
    · cases (reading c hread).symm.trans (changing c hread)
    · cases hread.symm.trans hd
      exact ⟨_, _, hexecute, rfl, houtcome, same, nofun⟩

/-- A deletion in a table whose file is no text. -/
theorem execute?_eq_runText_damaged :
    let root : Root := ⟨"db", .directory (Directory.empty.put "t.csv" (.file ⟨#[0xff, 0x0a]⟩))⟩
    let db : Database := ⟨root, {}⟩
    ∃ after, db.execute? "delete FROM t;" = some (.error (.disk .notUtf8), after) ∧
      (db.runText "delete FROM t;").1 = .error (.disk .notUtf8) ∧
      after.root.SameEntries (db.runText "delete FROM t;").2.root := by
  intro root db
  have hread : Command.read "delete FROM t;" = .ok (.delete "t" none) :=
    Outcome.toOption_eq_some.mp (by decide +kernel)
  have only {P : Command → Prop} (h : P (.delete "t" none)) :
      ∀ c, Command.read "delete FROM t;" = .ok c → P c := by
    rw [hread]
    rintro _ ⟨⟩
    exact h
  have hrun : (db.runText "delete FROM t;").1 = .error (.disk .notUtf8) := by decide +kernel
  have free : db.slot.current = none := rfl
  have regular : db.root.Regular "t" :=
    ⟨by decide, .inr ⟨⟨#[0xff, 0x0a]⟩, by decide +kernel⟩⟩
  obtain ⟨outcome, after, hexecute, -, houtcome, same, -⟩ :=
    execute?_eq_runText free (only rfl) (only (by decide)) (only regular)
  rw [houtcome, hrun] at hexecute
  exact ⟨after, hexecute, hrun, same⟩

end Database

end TableStore
