import Mathlib.Algebra.Ring.Nat
import TableStore.Proofs.Command.Supplied
import TableStore.Proofs.Database.Disjoint

/-! Insertions of many rows. A single insertion checks all its rows before it writes one; a
transaction of insertions of one row each writes every row before the next one is checked.
Both add the same rows, or fail at the same row and leave the files as they were. -/
namespace TableStore

open TableStore.Text TableStore.Sql

variable {root : Root} {table : String} {c : Contents} {columns group : List String}
  {groups : List (List String)} {rows : List Row} {fault : Fault}

/-- The rows of an insertion are made one group after another. -/
theorem Schema.newRows_cons (s : Schema) (columns group : List String)
    (groups : List (List String)) : s.newRows columns (group :: groups) =
      (s.newRows columns [group] >>= fun first =>
        (s.newRows columns groups).map fun rest => first ++ rest) := by
  unfold newRows
  cases columns.mapM s.index with
  | error fault => rfl
  | ok indices =>
    simp only [Outcome.ok_bind, List.mapM_cons, List.mapM_nil]
    cases s.newRow indices group with
    | error fault => rfl
    | ok row => cases groups.mapM (s.newRow indices) <;> rfl

/-- Rows that the columns can hold spoil no contents that a file can hold. -/
theorem Contents.check_append (hcheck : c.check = .ok ())
    (typed : ∀ row ∈ rows, c.schema.Holds row) :
    Contents.check { c with rows := c.rows ++ rows } = .ok () := by
  rw [check_eq_ok, List.forall_mem_append]
  exact ⟨check_eq_ok.mp hcheck,
    fun row hrow => ⟨(typed row hrow).length, (typed row hrow).storable⟩⟩

namespace Command

/-- On a table whose rows a file can hold, only the new rows can be refused. -/
theorem effect_insert (h : root.Reads table c) (hcheck : c.check = .ok ())
    (columns : List String) (groups : List (List String)) :
    (insert table columns groups).effect root =
      (c.schema.newRows columns groups).map fun rows => (counted rows.length "inserted",
        some (Contents.encode { c with rows := c.rows ++ rows })) := by
  obtain ⟨bytes, hread, heffect⟩ := effect_eq_revise h (insert table columns groups) rfl nofun
  rw [heffect]
  simp only [revise, Contents.decodeSchema_of_decode hread, hread, Outcome.ok_bind]
  cases hrows : c.schema.newRows columns groups with
  | error fault => rfl
  | ok rows =>
    simp only [Outcome.ok_bind, Contents.check_append hcheck (Schema.newRows_holds hrows)]
    rfl

theorem exists_run_of_effect_error {command : Command}
    (h : command.effect root = .error fault) :
    ∃ after, command.run root = (.error fault, after) := by
  rcases run_of_effect_error h with hrun | ⟨-, hrun⟩ <;> exact ⟨_, hrun⟩

/-- The insertions of one row each that together insert these groups. -/
def rowwise (table : String) (columns : List String) (groups : List (List String)) :
    List Command :=
  groups.map fun group => insert table columns [group]

end Command

open Command

/-- Once a table can be noted, the first fault of a queue is that of its first command, or comes
after it. -/
theorem firstFault?_of_peek {command : Command} {content : Option ByteArray}
    (h : root.peek command.table = .ok content) (noted : List String) (rest : List Command) :
    firstFault? root noted (command :: rest) =
      match command.run root with
      | (.error fault, _) => some fault
      | (.ok _, after) => firstFault? after (command.table :: noted) rest := by
  obtain ⟨held, hheld⟩ : ∃ held, (if command.table ∈ noted then .ok none
      else root.peek command.table) = Except.ok held := by
    by_cases hnoted : command.table ∈ noted
    · exact ⟨none, if_pos hnoted⟩
    · exact ⟨content, (if_neg hnoted).trans h⟩
  cases hrun : command.run root with
  | mk outcome after => cases outcome <;> simp only [firstFault?, hheld, hrun]

section Readable

variable (h : root.Reads table c) (hcheck : c.check = .ok ())
include h hcheck

/-- What an insertion leaves can be read, and inserted into, again. -/
theorem reads_inserted (hrows : c.schema.newRows columns groups = .ok rows) :
    (root.withFile (tableFile table) (Contents.encode { c with rows := c.rows ++ rows })).Reads
        table { c with rows := c.rows ++ rows } ∧
      Contents.check { c with rows := c.rows ++ rows } = .ok () := by
  have checked := Contents.check_append hcheck (Schema.newRows_holds hrows)
  exact ⟨h.withFile h.columns checked, checked⟩

theorem run_insert_of_newRows (hrows : c.schema.newRows columns groups = .ok rows) :
    (insert table columns groups).run root = (.ok (counted rows.length "inserted"),
      root.withFile (tableFile table) (Contents.encode { c with rows := c.rows ++ rows })) := by
  have heffect := effect_insert h hcheck columns groups
  rw [hrows] at heffect
  exact run_of_effect_ok heffect

theorem firstFault?_insert (noted : List String) (columns : List String)
    (groups : List (List String)) (rest : List Command) :
    firstFault? root noted (insert table columns groups :: rest) =
      match c.schema.newRows columns groups with
      | .error fault => some fault
      | .ok rows => firstFault?
          (root.withFile (tableFile table) (Contents.encode { c with rows := c.rows ++ rows }))
          (table :: noted) rest := by
  obtain ⟨named, bytes, hfile, -⟩ := Root.reads_iff.mp h
  have runnable : (insert table columns groups).Runnable root none :=
    runnable_of_file? named hfile
  obtain ⟨content, peeked⟩ := peek_of_runnable runnable
  rw [firstFault?_of_peek peeked]
  cases hrows : c.schema.newRows columns groups with
  | ok rows =>
    rw [run_insert_of_newRows h hcheck hrows]
    rfl
  | error fault =>
    have heffect := effect_insert h hcheck columns groups
    rw [hrows] at heffect
    obtain ⟨after, hrun⟩ := exists_run_of_effect_error heffect
    rw [hrun]

/-- Row by row or all at once, the first row that is refused is the same. -/
theorem firstFault?_rowwise (noted : List String) (columns group : List String)
    (groups : List (List String)) :
    firstFault? root noted (rowwise table columns (group :: groups)) =
      firstFault? root noted [insert table columns (group :: groups)] := by
  induction groups generalizing root c group noted with
  | nil => rfl
  | cons next groups ih =>
    have step : rowwise table columns (group :: next :: groups) =
        insert table columns [group] :: rowwise table columns (next :: groups) := rfl
    rw [step, firstFault?_insert h hcheck, firstFault?_insert h hcheck,
      Schema.newRows_cons c.schema columns group (next :: groups)]
    cases hfirst : c.schema.newRows columns [group] with
    | error fault => rfl
    | ok first =>
      obtain ⟨reads, checked⟩ := reads_inserted h hcheck hfirst
      simp only [Outcome.ok_bind]
      rw [ih reads checked, firstFault?_insert reads checked]
      cases c.schema.newRows columns (next :: groups) <;> rfl

/-- Rows that are accepted are added one after another, in one file that is written again and
again. -/
theorem runAll_rowwise (hrows : c.schema.newRows columns (group :: groups) = .ok rows) :
    runAll root (rowwise table columns (group :: groups)) =
      (.ok ((group :: groups).map fun _ => counted 1 "inserted"),
        root.withFile (tableFile table) (Contents.encode { c with rows := c.rows ++ rows })) := by
  have single {s : Schema} {group : List String} {first : List Row}
      (hfirst : s.newRows columns [group] = .ok first) : first.length = 1 := by
    obtain ⟨indices, -, hall⟩ := Schema.newRows_eq_ok.mp hfirst
    exact hall.length_eq.symm
  induction groups generalizing root c group rows with
  | nil =>
    rw [← single hrows]
    exact runAll_cons_eq_ok.mpr ⟨_, _, [], run_insert_of_newRows h hcheck hrows, rfl, rfl⟩
  | cons next groups ih =>
    rw [Schema.newRows_cons] at hrows
    obtain ⟨first, hfirst, hrows⟩ := Outcome.bind_eq_ok.mp hrows
    obtain ⟨rest, hrest, rfl⟩ := Outcome.map_eq_ok.mp hrows
    obtain ⟨reads, checked⟩ := reads_inserted h hcheck hfirst
    have hnext := ih reads checked hrest
    rw [Root.withFile_withFile, List.append_assoc] at hnext
    have hrun := run_insert_of_newRows h hcheck hfirst
    rw [single hfirst] at hrun
    exact runAll_cons_eq_ok.mpr ⟨_, _, _, hrun, hnext, rfl⟩

end Readable

/-- A queue that starts with an insertion and has a first fault fails with it, and changes no
file. -/
theorem runQueue_of_firstFault? {rest : List Command}
    (h : firstFault? root [] (insert table columns groups :: rest) = some fault) :
    ∃ after, runQueue root [] (insert table columns groups :: rest) = (.error fault, after) ∧
      after.SameEntries root := by
  rcases runQueue_cases root (insert table columns groups :: rest) with whole | ⟨c, others, hq, hl⟩
  · generalize runQueue root [] (insert table columns groups :: rest) = ran at whole
    obtain ⟨answers | fault', after⟩ := ran
    · cases h.symm.trans whole.1
      exact ⟨after, rfl, whole.2.2⟩
    · cases h.symm.trans whole.1
  · obtain ⟨-, -, -, _, _, _, made, -⟩ := hl
    cases hq
    cases made

/-- Without its table an insertion is refused, and not for its rows. -/
theorem firstFault?_insert_of_not_found (root : Root) (table : String)
    (absent : ∃ fault, ∀ f : String → ByteArray → Except Fault (Answer × Option ByteArray),
      root.onTable table f = .error fault) :
    ∃ fault, ∀ columns groups rest,
      firstFault? root [] (insert table columns groups :: rest) = some fault := by
  obtain ⟨fault, absent⟩ := absent
  cases hpeek : root.peek table with
  | error unread =>
    exact ⟨unread, fun columns groups rest => by
      simp only [firstFault?, List.not_mem_nil, if_false, Command.table, hpeek]⟩
  | ok content =>
    refine ⟨fault, fun columns groups rest => ?_⟩
    have peeked : root.peek (insert table columns groups).table = .ok content := hpeek
    rw [firstFault?_of_peek peeked]
    have heffect : (insert table columns groups).effect root = .error fault := absent _
    obtain ⟨after, hrun⟩ := exists_run_of_effect_error heffect
    rw [hrun]

/-- The insertion of rows in one command, and in commands of one row each, at the same root. -/
theorem runQueue_rowwise (root : Root) (table : String) (columns group : List String)
    (groups : List (List String))
    (readable : root.file? (tableFile table) = none ∨
      ∃ c, Table.contents ⟨table⟩ root = .ok c ∧
        ∀ row ∈ c.rows, ∀ value ∈ row, isStorable value = true) :
    (∃ after,
      runQueue root [] [insert table columns (group :: groups)] =
        (.ok [counted (groups.length + 1) "inserted"], after) ∧
      runQueue root [] (rowwise table columns (group :: groups)) =
        (.ok ((group :: groups).map fun _ => counted 1 "inserted"), after)) ∨
    ∃ fault, firstFault? root [] [insert table columns (group :: groups)] = some fault ∧
      firstFault? root [] (rowwise table columns (group :: groups)) = some fault := by
  rcases Table.find_cases root table with ⟨fault, -, absent⟩ | ⟨bytes, hfile, found, -⟩
  · obtain ⟨fault, refused⟩ := firstFault?_insert_of_not_found root table ⟨fault, absent⟩
    exact .inr ⟨fault, refused _ _ _, refused _ _ _⟩
  rcases readable with missing | ⟨c, read, storable⟩
  · cases missing.symm.trans hfile
  have h := Root.reads_of_contents found read
  have hcheck : c.check = .ok () :=
    Contents.check_eq_ok.mpr fun row hrow => ⟨h.length row hrow, storable row hrow⟩
  cases hrows : c.schema.newRows columns (group :: groups) with
  | error fault =>
    have whole : firstFault? root [] [insert table columns (group :: groups)] = some fault := by
      rw [firstFault?_insert h hcheck, hrows]
    exact .inr ⟨fault, whole, (firstFault?_rowwise h hcheck [] columns group groups).trans whole⟩
  | ok rows =>
    obtain ⟨indices, -, hall⟩ := Schema.newRows_eq_ok.mp hrows
    have count : rows.length = groups.length + 1 := hall.length_eq.symm
    have hrun := run_insert_of_newRows h hcheck hrows
    rw [count] at hrun
    exact .inl ⟨_, runQueue_eq_ok.mpr (runAll_cons_eq_ok.mpr ⟨_, _, [], hrun, rfl, rfl⟩),
      runQueue_eq_ok.mpr (runAll_rowwise h hcheck hrows)⟩

namespace Database

/-- Inserting many rows in one command, or each row in a command of its own: either both commits
succeed, count the same rows and leave the same database, or both fail with the same fault and
change no file. -/
theorem settle_rowwise (db : Database) (table : String) (columns : List String)
    {groups : List (List String)} (nonempty : groups ≠ [])
    (readable : db.root.file? (tableFile table) = none ∨
      ∃ c, Table.contents ⟨table⟩ db.root = .ok c ∧
        ∀ row ∈ c.rows, ∀ value ∈ row, isStorable value = true) :
    (∃ answer answers,
      (db.settle [insert table columns groups]).1 = .ok [answer] ∧
      (db.settle (rowwise table columns groups)).1 = .ok answers ∧
      answers.length = groups.length ∧
      (answers.map Answer.affected).sum = answer.affected ∧
      (db.settle (rowwise table columns groups)).2 =
        (db.settle [insert table columns groups]).2) ∨
    ∃ fault,
      (db.settle [insert table columns groups]).1 = .error fault ∧
      (db.settle (rowwise table columns groups)).1 = .error fault ∧
      (db.settle [insert table columns groups]).2.root.SameEntries db.root ∧
      (db.settle (rowwise table columns groups)).2.root.SameEntries db.root ∧
      (db.settle (rowwise table columns groups)).2.slot =
        (db.settle [insert table columns groups]).2.slot := by
  obtain ⟨group, groups, rfl⟩ := List.exists_cons_of_ne_nil nonempty
  simp only [settle, commit_opened]
  rcases runQueue_rowwise db.root table columns group groups readable with
    ⟨after, whole, split⟩ | ⟨fault, whole, split⟩
  · have ones (n : Nat) :
        ((List.replicate n (counted 1 "inserted")).map Answer.affected).sum = n := by
      simp [counted]
    refine .inl ⟨counted (groups.length + 1) "inserted", _, by rw [whole], by rw [split],
      List.length_map _, ?_, by rw [whole, split]⟩
    rw [List.map_const', List.length_cons, ones]
    rfl
  · obtain ⟨left, hwhole, keeps⟩ := runQueue_of_firstFault? whole
    obtain ⟨right, hsplit, keeps'⟩ :
        ∃ right, runQueue db.root [] (rowwise table columns (group :: groups)) =
          (.error fault, right) ∧ right.SameEntries db.root := runQueue_of_firstFault? split
    rw [hwhole, hsplit]
    exact .inr ⟨fault, rfl, rfl, keeps, keeps', trivial⟩

/-- Rows for a file with other line ends: they are inserted, or the second one is refused. -/
theorem settle_rowwise_carriageReturns :
    let root : Root :=
      ⟨"db", .directory (Directory.empty.put "t.csv" (.file "a\r\nint64\r\n1".toUTF8))⟩
    let db : Database := { root }
    let insertion (groups : List (List String)) : Command := insert "t" ["a"] groups
    (db.settle [insertion [["2"], ["3"]]]).1 = .ok [counted 2 "inserted"] ∧
      (db.settle (rowwise "t" ["a"] [["2"], ["3"]])).1 =
        .ok [counted 1 "inserted", counted 1 "inserted"] ∧
      (db.settle (rowwise "t" ["a"] [["2"], ["3"]])).2 =
        (db.settle [insertion [["2"], ["3"]]]).2 ∧
      (db.settle [insertion [["2"], ["x"]]]).1 = .error (.typeMismatch "a" "int64" "x") ∧
      (db.settle (rowwise "t" ["a"] [["2"], ["x"]])).1 =
        .error (.typeMismatch "a" "int64" "x") ∧
      (db.settle (rowwise "t" ["a"] [["2"], ["x"]])).2.root.SameEntries db.root := by
  intro root db insertion
  let c : Contents := ⟨⟨[⟨"a", .int64⟩], by decide⟩, [["1"]]⟩
  have read : Table.contents ⟨"t"⟩ db.root = .ok c :=
    Outcome.toOption_eq_some.mp (by decide +kernel)
  have readable : db.root.file? (tableFile "t") = none ∨
      ∃ c, Table.contents ⟨"t"⟩ db.root = .ok c ∧
        ∀ row ∈ c.rows, ∀ value ∈ row, isStorable value = true :=
    .inr ⟨c, read, by decide +kernel⟩
  have inserted : (db.settle [insertion [["2"], ["3"]]]).1 = .ok [counted 2 "inserted"] := by
    decide +kernel
  have refused : (db.settle [insertion [["2"], ["x"]]]).1 =
      .error (.typeMismatch "a" "int64" "x") := by
    decide +kernel
  have counts : (db.settle (rowwise "t" ["a"] [["2"], ["3"]])).1 =
      .ok [counted 1 "inserted", counted 1 "inserted"] := by
    decide +kernel
  have accepts := settle_rowwise db "t" ["a"] (List.cons_ne_nil ["2"] [["3"]]) readable
  have refuses := settle_rowwise db "t" ["a"] (List.cons_ne_nil ["2"] [["x"]]) readable
  rcases accepts with ⟨-, -, -, -, -, -, same⟩ | ⟨fault, failed, -⟩
  · rcases refuses with ⟨answer, -, succeeded, -⟩ | ⟨fault, failed, failed', -, keeps, -⟩
    · cases succeeded.symm.trans refused
    · cases failed.symm.trans refused
      exact ⟨inserted, counts, same, refused, failed', keeps⟩
  · cases failed.symm.trans inserted

end Database

end TableStore
