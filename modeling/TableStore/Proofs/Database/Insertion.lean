import TableStore.Proofs.Command.Reads
import TableStore.Proofs.Database.Single
import TableStore.Proofs.Sql.Insertion
import TableStore.Proofs.Table.Selection

/-! An insertion followed by a selection: what was in the table, and after it the rows as
they were given. -/
namespace TableStore

open TableStore.Text TableStore.Sql

namespace Database

variable {db : Database} {c : Contents} {rows : List Row} {name text : String}

theorem query_selectionText (db : Database) (isName : IsName name) (h : db.root.Reads name c) :
    db.query (selectionText name) = .ok { columns := c.schema.names, rows := c.rows } := by
  have heffect := Command.effect_select h ["*"] none none
  have all : (c.rows.filter fun row => c.Matches none row) = c.rows := by simp [Contents.Matches]
  rw [Contents.select_star h.length, all] at heffect
  unfold query
  rw [Command.read_selectionText isName, Outcome.ok_bind]
  unfold ask
  rw [Command.run_of_effect_ok heffect]
  rfl

/-- An insertion in which every value stands between quotes waits while a transaction is open,
and else succeeds; the rows are then selected as they were given, after those of before. -/
theorem insert_select_verbatim {t : Table} (found : Table.find db.root name = .ok t)
    (read : t.contents db.root = .ok c)
    (storable : ∀ row ∈ c.rows, ∀ value ∈ row, isStorable value = true)
    (distinct : c.schema.names.Nodup) (words : ∀ column ∈ c.schema.names, IsWord column)
    (nonempty : rows ≠ []) (typed : ∀ row ∈ rows, c.schema.Holds row) :
    (db.execute? (insertionText name c.schema.names rows) = none ↔ db.slot.current ≠ none) ∧
    ∀ outcome after, db.execute? (insertionText name c.schema.names rows) = some (outcome, after) →
      ∃ answer, outcome = .ok answer ∧ answer.affected = rows.length ∧
        after.query (selectionText name) =
          .ok { columns := c.schema.names, rows := c.rows ++ rows } := by
  refine ⟨execute?_eq_none, fun outcome after hexecute => ?_⟩
  have free := free_of_execute? hexecute
  have reads := Root.reads_of_contents found read
  have isName := isTableName_iff.mp (Root.reads_iff.mp reads).1
  have width : c.schema.width ≠ 0 := fun h => reads.columns (List.length_eq_zero_iff.mp h)
  have columns : c.schema.names ≠ [] := by
    rwa [ne_eq, ← List.length_eq_zero_iff, Schema.length_names]
  have filled : ∀ row ∈ rows, row ≠ [] := by
    rintro row hrow rfl
    exact width (typed [] hrow).length.symm
  have check : Contents.check { c with rows := c.rows ++ rows } = .ok () := by
    rw [Contents.check_eq_ok]
    intro row hrow
    rcases List.mem_append.mp hrow with hrow | hrow
    · exact ⟨reads.length row hrow, storable row hrow⟩
    · exact ⟨(typed row hrow).length, (typed row hrow).storable⟩
  have heffect := (Command.effect_insert_eq_ok reads).mpr
    ⟨rows, Schema.newRows_names distinct typed, check, rfl, rfl⟩
  have hread := Command.read_insertionText isName columns words nonempty filled
  rw [execute?_of_effect free hread rfl heffect] at hexecute
  cases hexecute
  have written : Root.Reads (db.root.withFile (tableFile name)
      (Contents.encode { c with rows := c.rows ++ rows })) name { c with rows := c.rows ++ rows } :=
    reads.withFile reads.columns check
  have selected := query_selectionText ⟨_, db.slot.passed⟩ isName written
  exact ⟨_, rfl, rfl, selected⟩

/-- Values that look like parts of a statement. -/
theorem insert_select_verbatim_quotes :
    let root : Root :=
      ⟨"db", .directory (Directory.empty.put "t.csv" (.file "a,WHERE\nint64,string\n1,x\n".toUTF8))⟩
    let rows : List Row := [["-2", "O'Brien's (best); DROP"], ["+3", ""]]
    insertionText "t" ["a", "WHERE"] rows =
      "INSERT INTO t (a, WHERE) VALUES ('-2', 'O''Brien''s (best); DROP'), ('+3', '')" ∧
    ∃ answer after, execute? ⟨root, {}⟩ (insertionText "t" ["a", "WHERE"] rows) =
        some (.ok answer, after) ∧ answer.affected = 2 ∧
      after.query (selectionText "t") =
        .ok { columns := ["a", "WHERE"], rows := ["1", "x"] :: rows } := by
  intro root rows
  let c : Contents := ⟨⟨[⟨"a", .int64⟩, ⟨"WHERE", .text⟩], by decide⟩, [["1", "x"]]⟩
  let db : Database := ⟨root, {}⟩
  have found : Table.find db.root "t" = .ok ⟨"t"⟩ :=
    Outcome.toOption_eq_some.mp (by decide +kernel)
  have read : Table.contents ⟨"t"⟩ db.root = .ok c :=
    Outcome.toOption_eq_some.mp (by decide +kernel)
  have storable : ∀ row ∈ c.rows, ∀ value ∈ row, isStorable value = true := by decide +kernel
  have words : ∀ column ∈ c.schema.names, IsWord column := by decide +kernel
  have accepted : ∀ row ∈ rows, (c.schema.checkRow row).toOption = some () := by decide +kernel
  have typed : ∀ row ∈ rows, c.schema.Holds row := fun row hrow =>
    Schema.checkRow_eq_ok.mp (Outcome.toOption_eq_some.mp (accepted row hrow))
  obtain ⟨waits, served⟩ := insert_select_verbatim found read storable (by decide) words
    (List.cons_ne_nil _ _) typed
  obtain ⟨⟨outcome, after⟩, hexecute⟩ :=
    Option.ne_none_iff_exists'.mp fun none => waits.mp none rfl
  obtain ⟨answer, rfl, affected, selected⟩ := served outcome after hexecute
  exact ⟨by decide +kernel, answer, after, hexecute, affected, selected⟩

end Database

end TableStore
