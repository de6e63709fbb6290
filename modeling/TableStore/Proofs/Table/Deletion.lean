import TableStore.Proofs.Table.Selection

/-! Deletions beside selections: what a selection shows goes, and what a selection by the
complement shows stays. On a column that the table lacks both show nothing, and nothing goes. -/
namespace TableStore

open TableStore.Text TableStore.Sql

namespace Contents

variable {c : Contents} {p : Condition}

def matching (c : Contents) (p : Condition) : List Row :=
  c.rows.filter fun row => p.Matches c.schema.names row

theorem filter_matches_some (c : Contents) (p : Condition) :
    (c.rows.filter fun row => c.Matches (some p) row) = c.matching p := by
  simp only [matching, matches_some]

/-- On a column that is not there a deletion finds nothing to remove. -/
theorem delete_of_notMem (h : p.column ∉ c.schema.names) : c.delete (some p) = (0, c) := by
  have unselected : ∀ row, c.selects (some p) row = false := by
    intro row
    rw [Bool.eq_false_iff]
    exact fun hselects => Condition.not_matches h (Condition.holds_iff_matches.mp hselects)
  unfold delete
  simp [unselected]

/-- A row of the table has a field in every column, so it satisfies one of the two. -/
theorem complement_matches_iff (hrows : ∀ row ∈ c.rows, row.length = c.schema.width)
    (h : p.column ∈ c.schema.names) {row : Row} (hrow : row ∈ c.rows) :
    p.complement.Matches c.schema.names row ↔ ¬p.Matches c.schema.names row :=
  Condition.matches_complement ((hrows row hrow).trans c.schema.length_names.symm) h

/-- Where the condition has its field, the rows that a deletion keeps satisfy the complement. -/
theorem filter_not_selects (hrows : ∀ row ∈ c.rows, row.length = c.schema.width)
    (h : p.column ∈ c.schema.names) :
    (c.rows.filter fun row => !c.selects (some p) row) = c.matching p.complement := by
  refine List.filter_congr fun row hrow => ?_
  rw [selects_eq, ← decide_not, decide_eq_decide, matches_some,
    complement_matches_iff hrows h hrow]

theorem check_filter (hrows : ∀ row ∈ c.rows, row.length = c.schema.width)
    (hvalues : ∀ row ∈ c.rows, ∀ value ∈ row, isStorable value = true) (keep : Row → Bool) :
    Contents.check ⟨c.schema, c.rows.filter keep⟩ = .ok () := by
  refine check_eq_ok.mpr fun row hrow => ?_
  have hmem : row ∈ c.rows := List.mem_of_mem_filter hrow
  exact ⟨hrows row hmem, hvalues row hmem⟩

end Contents

namespace Table

variable {t : Table} {root : Root} {c : Contents}

/-- A condition on a column of the table parts its rows: those that satisfy the condition are
selected and deleted, those that satisfy the complement are selected and kept. -/
theorem delete_select_complement (h : t.contents root = .ok c)
    (hvalues : ∀ row ∈ c.rows, ∀ value ∈ row, isStorable value = true) (p : Condition) :
    (p.column ∈ c.schema.names →
      t.select root ["*"] (some p) none =
        .ok { columns := c.schema.names, rows := c.matching p } ∧
      t.select root ["*"] (some p.complement) none =
        .ok { columns := c.schema.names, rows := c.matching p.complement } ∧
      (∃ after, t.delete root (some p) = .ok ((c.matching p).length, after) ∧
        t.contents after = .ok ⟨c.schema, c.matching p.complement⟩) ∧
      ∀ row ∈ c.rows, Xor (p.Matches c.schema.names row)
        (p.complement.Matches c.schema.names row)) ∧
    (p.column ∉ c.schema.names →
      (∀ row ∈ c.rows, ¬p.Matches c.schema.names row ∧
        ¬p.complement.Matches c.schema.names row) ∧
      ∃ after, t.delete root (some p) = .ok (0, after) ∧ t.contents after = .ok c) := by
  have hrows := length_of_contents h
  have hcolumns : c.schema.columns ≠ [] := columns_of_contents h
  have hcheck : (c.delete (some p)).2.check = .ok () := Contents.check_filter hrows hvalues _
  have selects (q : Condition) : t.select root ["*"] (some q) none =
      .ok { columns := c.schema.names, rows := c.matching q } := by
    rw [select_of_contents h, Contents.select_star hrows, Contents.filter_matches_some]
  have deletes : ∃ after, t.delete root (some p) = .ok ((c.delete (some p)).1, after) ∧
      t.contents after = .ok (c.delete (some p)).2 :=
    ⟨_, (delete_eq_ok h).mpr ⟨hcheck, rfl, rfl⟩, contents_withFile h hcolumns hcheck⟩
  constructor
  · intro hcolumn
    have removed : (c.delete (some p)).1 = (c.matching p).length := by
      rw [← Contents.filter_matches_some, ← Contents.selects_eq]
      exact List.countP_eq_length_filter
    have kept : (c.delete (some p)).2 = ⟨c.schema, c.matching p.complement⟩ :=
      congrArg (Contents.mk c.schema) (Contents.filter_not_selects hrows hcolumn)
    rw [removed, kept] at deletes
    refine ⟨selects p, selects p.complement, deletes, fun row hrow => ?_⟩
    rw [Contents.complement_matches_iff hrows hcolumn hrow]
    exact xor_not_right.mpr Iff.rfl
  · intro hcolumn
    rw [Contents.delete_of_notMem hcolumn] at deletes
    exact ⟨fun row _ => ⟨Condition.not_matches hcolumn, Condition.not_matches hcolumn⟩, deletes⟩

/-- Texts in order, not numbers, and a condition on a column that is not there. -/
theorem delete_select_complement_texts :
    let text := "a,b\nint64,string\n9,x\n10,y\n,z\n9,x\n"
    let root : Root := ⟨"db", .directory (Directory.empty.put "t.csv" (.file text.toUTF8))⟩
    let c : Contents :=
      ⟨⟨[⟨"a", .int64⟩, ⟨"b", .text⟩], by decide⟩,
        [["9", "x"], ["10", "y"], ["", "z"], ["9", "x"]]⟩
    Table.contents ⟨"t"⟩ root = .ok c ∧ (∀ row ∈ c.rows, ∀ value ∈ row, isStorable value = true) ∧
      (∃ after, Table.delete ⟨"t"⟩ root (some ⟨"a", .lt, "9"⟩) = .ok (2, after) ∧
        Table.contents ⟨"t"⟩ after = .ok ⟨c.schema, [["9", "x"], ["9", "x"]]⟩) ∧
      ∃ after, Table.delete ⟨"t"⟩ root (some ⟨"c", .ne, "9"⟩) = .ok (0, after) ∧
        Table.contents ⟨"t"⟩ after = .ok c := by
  intro text root c
  have hread : Table.contents ⟨"t"⟩ root = .ok c :=
    Outcome.toOption_eq_some.mp (by decide +kernel)
  have hvalues : ∀ row ∈ c.rows, ∀ value ∈ row, isStorable value = true := by decide
  obtain ⟨-, -, parted, -⟩ := (delete_select_complement hread hvalues ⟨"a", .lt, "9"⟩).1 (by decide)
  obtain ⟨-, untouched⟩ := (delete_select_complement hread hvalues ⟨"c", .ne, "9"⟩).2 (by decide)
  exact ⟨hread, hvalues, parted, untouched⟩

end Table

end TableStore
