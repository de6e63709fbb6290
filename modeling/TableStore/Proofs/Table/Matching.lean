import TableStore.Table.Contents

/-! Fields by the names of their columns, and the rows that satisfy a condition. A name stands
for the first column that has it. The order of texts is total, so a field satisfies a comparison
or its complement; a row without the field satisfies neither. -/
namespace TableStore

open TableStore.Sql

/-- What a comparison says about two texts. -/
def Sql.Comparison.Relates : Comparison → String → String → Prop
  | .eq, left, right => left = right
  | .ne, left, right => left ≠ right
  | .gt, left, right => right < left
  | .lt, left, right => left < right
  | .ge, left, right => right < left ∨ left = right
  | .le, left, right => left < right ∨ left = right

/-- The field of a row in the first column with a name. -/
def Row.field? (row : Row) (header : List String) (name : String) : Option String :=
  (header.zip row).lookup name

/-- A row has a field in the column of a condition, and it is related to the literal. -/
def Sql.Condition.Matches (p : Condition) (header : List String) (row : Row) : Prop :=
  ∃ field, row.field? header p.column = some field ∧ p.op.Relates field p.literal

def Contents.Matches (c : Contents) (condition : Option Condition) (row : Row) : Prop :=
  ∀ p ∈ condition, p.Matches c.schema.names row

namespace Sql.Comparison

variable {op : Comparison} {left right : String}

theorem holds_iff_relates : op.holds left right = true ↔ op.Relates left right := by
  cases op with
  | eq => simp [holds, Relates]
  | ne => simp [holds, Relates]
  | gt => simp [holds, Relates]
  | lt => simp [holds, Relates]
  | ge =>
    simp only [holds, Relates, Bool.not_eq_true', decide_eq_false_iff_not]
    rw [String.not_lt, Std.le_iff_lt_or_eq, eq_comm]
  | le =>
    simp only [holds, Relates, Bool.not_eq_true', decide_eq_false_iff_not]
    rw [String.not_lt, Std.le_iff_lt_or_eq]

/-- Two texts are related by a comparison or by its complement, and never by both. -/
theorem relates_complement : op.complement.Relates left right ↔ ¬op.Relates left right := by
  rw [← holds_iff_relates, ← holds_iff_relates, holds_complement]
  simp

end Sql.Comparison

namespace Row

variable {row : Row} {header : List String} {name : String}

theorem field?_eq (row : Row) (header : List String) (name : String) :
    row.field? header name = (header.idxOf? name).bind fun i => row[i]? := by
  unfold field?
  induction header generalizing row with
  | nil => rfl
  | cons column header ih =>
    rw [List.idxOf?_cons]
    cases row with
    | nil => simp
    | cons field row =>
      rw [List.zip_cons_cons, List.lookup_cons]
      by_cases h : column = name
      · simp [h]
      · have apart : (name == column) = false := by simpa using Ne.symm h
        simp only [apart, ih, beq_iff_eq, h, if_false, Option.bind_map]
        rfl

theorem field?_eq_none (h : name ∉ header) : row.field? header name = none := by
  rw [field?_eq, List.idxOf?_eq_none_iff.mpr h]
  rfl

theorem exists_field? (hlength : row.length = header.length) (h : name ∈ header) :
    ∃ field, row.field? header name = some field := by
  obtain ⟨i, hi⟩ := Option.isSome_iff_exists.mp (List.isSome_idxOf?.mpr h)
  have hlt : i < row.length := hlength ▸ (List.idxOf?_eq_some_iff.mp hi).1
  exact ⟨row[i], by rw [field?_eq, hi, Option.bind_some, List.getElem?_eq_getElem hlt]⟩

end Row

namespace Sql.Condition

variable {p : Condition} {header : List String} {row : Row}

theorem holds_iff_matches : p.holds header row = true ↔ p.Matches header row := by
  unfold holds Matches
  simp only [← Row.field?_eq, Option.any_eq_true, Comparison.holds_iff_relates]

instance (p : Condition) (header : List String) : DecidablePred (p.Matches header) :=
  fun _ => decidable_of_iff _ holds_iff_matches

/-- The condition that compares the same column with the same literal the other way. -/
def complement (p : Condition) : Condition :=
  { p with op := p.op.complement }

/-- A row with a field in the column satisfies the condition or its complement. -/
theorem matches_complement (hlength : row.length = header.length) (h : p.column ∈ header) :
    p.complement.Matches header row ↔ ¬p.Matches header row := by
  obtain ⟨field, hfield⟩ := Row.exists_field? hlength h
  simp [Matches, complement, hfield, Comparison.relates_complement]

/-- Without the column a row satisfies no condition on it. -/
theorem not_matches (h : p.column ∉ header) : ¬p.Matches header row := by
  rintro ⟨field, hfield, -⟩
  rw [Row.field?_eq_none h] at hfield
  cases hfield

end Sql.Condition

namespace Contents

variable {c : Contents} {condition : Option Condition} {row : Row}

theorem selects_iff_matches : c.selects condition row = true ↔ c.Matches condition row := by
  unfold selects Matches
  cases condition <;> simp [Condition.holds_iff_matches]

theorem matches_some {p : Condition} :
    c.Matches (some p) row ↔ p.Matches c.schema.names row := by
  simp [Matches]

instance (c : Contents) (condition : Option Condition) : DecidablePred (c.Matches condition) :=
  fun _ => decidable_of_iff _ selects_iff_matches

theorem selects_eq (c : Contents) (condition : Option Condition) :
    c.selects condition = fun row => decide (c.Matches condition row) := by
  funext row
  rw [Bool.eq_iff_iff, selects_iff_matches, decide_eq_true_eq]

end Contents

end TableStore
