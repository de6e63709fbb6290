import TableStore.Proofs.Table.Matching
import TableStore.Proofs.Table.Rows
import TableStore.Proofs.Table.Stored

/-! Updates. An assignment list is known by what it leaves in a row: the last value for each
column in the first column of that name, and every other field as it was. A second run of an
update finds nothing to change, whether the rows still satisfy its condition or not. -/
namespace TableStore

open TableStore.Sql

namespace Schema

/-- What an assignment list makes of a row. -/
structure Revises (s : Schema) (assignments : List (String × String)) (old new : Row) : Prop where
  length : new.length = old.length
  assigned : ∀ before column value later, assignments = before ++ (column, value) :: later →
    column ∉ later.map Prod.fst → new.field? s.names column = some value
  others : ∀ i, (∀ p ∈ assignments, s.names.idxOf? p.1 ≠ some i) → new[i]? = old[i]?

variable {s : Schema} {assignments : List (String × String)} {values : List (Nat × String)}
  {row : Row}

theorem resolveAssignments_eq_map (h : s.resolveAssignments assignments = .ok values) :
    (∀ p ∈ assignments, p.1 ∈ s.names) ∧
      values = assignments.map (Prod.map (fun name => s.names.idxOf name) id) := by
  have each : List.Forall₂ (fun p v => p.1 ∈ s.names ∧
      Prod.map (fun name => s.names.idxOf name) id p = v) assignments values := by
    refine (Outcome.mapM_eq_ok.mp h).imp fun p v hv => ?_
    obtain ⟨i, hi, hv⟩ := Outcome.bind_eq_ok.mp hv
    obtain ⟨_, -, hv⟩ := Outcome.bind_eq_ok.mp hv
    cases hv
    obtain ⟨known, rfl⟩ := index_eq_ok_iff_idxOf.mp hi
    exact ⟨known, rfl⟩
  rw [List.forall₂_and_left] at each
  refine ⟨each.1, ?_⟩
  rw [eq_comm, ← List.forall₂_eq_eq_eq, List.forall₂_map_left_iff]
  exact each.2

theorem revises_assign (h : s.resolveAssignments assignments = .ok values)
    (hrow : row.length = s.width) : s.Revises assignments row (row.assign values) := by
  obtain ⟨known, rfl⟩ := resolveAssignments_eq_map h
  refine ⟨Row.length_assign _ _, ?_, fun i hi => ?_⟩
  · rintro before column value later rfl hlast
    have listed : ∀ p ∈ (column, value) :: later, p.1 ∈ s.names :=
      fun p hp => known p (List.mem_append_right before hp)
    have hindex : s.names.idxOf? column = some (s.names.idxOf column) :=
      index_eq_ok.mp (index_eq_ok_iff_idxOf.mpr ⟨listed _ List.mem_cons_self, rfl⟩)
    rw [Row.field?_eq, hindex, Option.bind_some]
    exact getElem?_assign_named hrow listed hlast
  · refine Row.getElem?_assign_of_notMem fun hmem => ?_
    rw [List.map_map] at hmem
    obtain ⟨p, hp, he⟩ := List.mem_map.mp hmem
    exact hi p hp (index_eq_ok.mp (index_eq_ok_iff_idxOf.mpr ⟨known p hp, he⟩))

end Schema

namespace Contents

variable {c new : Contents} {assignments : List (String × String)} {condition : Option Condition}
  {values : List (Nat × String)} {count : Nat} {row : Row}

/-- The row with values assigned, if it satisfies a condition. -/
def revised (c : Contents) (condition : Option Condition) (values : List (Nat × String))
    (row : Row) : Row :=
  if c.Matches condition row then row.assign values else row

def revise (c : Contents) (condition : Option Condition) (values : List (Nat × String)) :
    Contents :=
  { c with rows := c.rows.map (c.revised condition values) }

theorem update_eq_ok : c.update assignments condition = .ok (count, new) ↔
    ∃ values, c.schema.resolveAssignments assignments = .ok values ∧
      c.rows.countP (fun row => c.Matches condition row) = count ∧
      c.revise condition values = new := by
  unfold update revise revised
  rw [selects_eq]
  simp only [Outcome.bind_eq_ok, Outcome.pure_eq_ok, decide_eq_true_eq, Prod.mk.injEq]

/-- A row that satisfied the condition has its values already, if it still does. -/
theorem revised_revised (c : Contents) (condition : Option Condition)
    (values : List (Nat × String)) (row : Row) :
    c.revised condition values (c.revised condition values row) =
      c.revised condition values row := by
  unfold revised
  by_cases before : c.Matches condition row
  · rw [if_pos before, Row.assign_assign, ite_self]
  · rw [if_neg before, if_neg before]

theorem revise_revise (c : Contents) (condition : Option Condition)
    (values : List (Nat × String)) :
    (c.revise condition values).revise condition values = c.revise condition values := by
  have again : (c.rows.map (c.revised condition values)).map (c.revised condition values) =
      c.rows.map (c.revised condition values) := by
    rw [List.map_map]
    exact List.map_congr_left fun row _ => c.revised_revised condition values row
  exact congrArg (Contents.mk c.schema) again

end Contents

namespace Table

variable {t : Table} {root after : Root} {c : Contents} {assignments : List (String × String)}
  {condition : Option Condition} {count : Nat}

/-- An update rewrites the rows that satisfy its condition and counts them. The same update
again succeeds, and leaves the root as it is. -/
theorem update_exact_idempotent (h : t.contents root = .ok c)
    (hupdate : t.update root assignments condition = .ok (count, after)) :
    ∃ rows, t.contents after = .ok ⟨c.schema, rows⟩ ∧
      List.Forall₂ (fun old new => if c.Matches condition old
        then c.schema.Revises assignments old new else new = old) c.rows rows ∧
      count = c.rows.countP (fun row => c.Matches condition row) ∧
      t.update after assignments condition =
        .ok (rows.countP fun row => c.Matches condition row, after) := by
  obtain ⟨new, hnew, hcheck, rfl⟩ := (update_eq_ok h).mp hupdate
  obtain ⟨values, hvalues, rfl, rfl⟩ := Contents.update_eq_ok.mp hnew
  have hcolumns : c.schema.columns ≠ [] := columns_of_contents h
  have hread : t.contents (root.withFile (tableFile t.name) (c.revise condition values).encode) =
      .ok (c.revise condition values) := contents_withFile h hcolumns hcheck
  refine ⟨(c.revise condition values).rows, hread, ?_, rfl, ?_⟩
  · unfold Contents.revise Contents.revised
    rw [List.forall₂_map_right_iff, List.forall₂_same]
    intro row hrow
    by_cases hmatches : c.Matches condition row
    · rw [if_pos hmatches, if_pos hmatches]
      exact Schema.revises_assign hvalues (length_of_contents h row hrow)
    · rw [if_neg hmatches, if_neg hmatches]
  · have again : (c.revise condition values).update assignments condition = .ok
        ((c.revise condition values).rows.countP fun row => c.Matches condition row,
          c.revise condition values) :=
      Contents.update_eq_ok.mpr ⟨values, hvalues, rfl, c.revise_revise condition values⟩
    exact (update_eq_ok hread).mpr ⟨_, again, hcheck, Root.withFile_withFile ..⟩

/-- A row that does not satisfy the condition any more once it is updated, and a later column
that shares the name of the one that is assigned. -/
theorem update_exact_idempotent_leaving :
    let text := "a,b,a\nint64,string,string\n1,p,q\n8,r,s\n10,t,u\n"
    let root : Root := ⟨"db", .directory (Directory.empty.put "t.csv" (.file text.toUTF8))⟩
    let schema : Schema := ⟨[⟨"a", .int64⟩, ⟨"b", .text⟩, ⟨"a", .text⟩], by decide⟩
    let assignments := [("a", "7"), ("b", ""), ("a", "90")]
    let condition : Option Condition := some ⟨"a", .lt, "8"⟩
    ∃ after, Table.update ⟨"t"⟩ root assignments condition = .ok (2, after) ∧
      Table.contents ⟨"t"⟩ after =
        .ok ⟨schema, [["90", "", "q"], ["8", "r", "s"], ["90", "", "u"]]⟩ ∧
      Table.update ⟨"t"⟩ after assignments condition = .ok (0, after) := by
  intro text root schema assignments condition
  have hread : Table.contents ⟨"t"⟩ root =
      .ok ⟨schema, [["1", "p", "q"], ["8", "r", "s"], ["10", "t", "u"]]⟩ :=
    Outcome.toOption_eq_some.mp (by decide +kernel)
  have counted : ((Table.update ⟨"t"⟩ root assignments condition).map Prod.fst).toOption =
      some 2 := by decide +kernel
  obtain ⟨⟨_, after⟩, hupdate, rfl⟩ :=
    Outcome.map_eq_ok.mp (Outcome.toOption_eq_some.mp counted)
  have held : ((Table.update ⟨"t"⟩ root assignments condition).bind fun p =>
      Table.contents ⟨"t"⟩ p.2).toOption =
        some ⟨schema, [["90", "", "q"], ["8", "r", "s"], ["90", "", "u"]]⟩ := by decide +kernel
  rw [hupdate] at held
  obtain ⟨rows, hafter, -, -, hagain⟩ := update_exact_idempotent hread hupdate
  cases hafter.symm.trans (Outcome.toOption_eq_some.mp held)
  exact ⟨after, hupdate, hafter, hagain⟩

end Table

end TableStore
