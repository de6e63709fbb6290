import Mathlib.Data.List.Zip
import TableStore.Proofs.Table.Codec

/-! Typed contents: every row has one value for each column, of the column's type and
fit for a file. Whatever statements make of such contents is typed again. -/
namespace TableStore

open TableStore.Text TableStore.Sql

/-- A value that a column can hold: it has the column's type, and it is a single field. -/
structure Column.Holds (c : Column) (value : String) : Prop where
  typed : c.type.accepts value = true
  storable : isStorable value = true

theorem Column.check_eq_ok {c : Column} {value : String} :
    c.check value = .ok () ↔ c.Holds value := by
  unfold Column.check ColumnType.check
  constructor
  · intro h
    obtain ⟨_, ht, hs⟩ := Outcome.bind_eq_ok.mp h
    refine ⟨?_, ?_⟩
    · by_contra hne
      rw [if_neg hne] at ht
      cases ht
    · by_contra hne
      rw [if_neg hne] at hs
      cases hs
  · rintro ⟨ht, hs⟩
    rw [if_pos ht, if_pos hs]
    rfl

namespace Schema

variable {s : Schema} {row : Row}

/-- A row that has one value for each column, each of which the column can hold. -/
def Holds (s : Schema) (row : Row) : Prop :=
  List.Forall₂ Column.Holds s.columns row

theorem holds_iff : s.Holds row ↔ row.length = s.width ∧
    ∀ (i : Nat) (c : Column) (value : String), s.columns[i]? = some c → row[i]? = some value →
      c.Holds value := by
  unfold Holds
  rw [List.forall₂_iff_get, eq_comm]
  refine and_congr_right fun hl => ?_
  constructor
  · intro h i c value hc hv
    obtain ⟨hi, rfl⟩ := List.getElem?_eq_some_iff.mp hc
    obtain ⟨hi', rfl⟩ := List.getElem?_eq_some_iff.mp hv
    exact h i hi hi'
  · intro h i hi hi'
    exact h i _ _ (List.getElem?_eq_getElem hi) (List.getElem?_eq_getElem hi')

theorem Holds.length (h : s.Holds row) : row.length = s.width :=
  (holds_iff.mp h).1

theorem Holds.storable (h : s.Holds row) : ∀ value ∈ row, isStorable value = true := by
  intro value hv
  obtain ⟨i, hi⟩ := List.getElem?_of_mem hv
  obtain ⟨hl, hall⟩ := holds_iff.mp h
  have hc : i < s.columns.length := by
    rw [← width, ← hl]
    exact (List.getElem?_eq_some_iff.mp hi).1
  exact (hall i _ value (List.getElem?_eq_getElem hc) hi).storable

theorem checkRow_eq_ok : s.checkRow row = .ok () ↔ s.Holds row := by
  unfold checkRow Holds
  rw [List.forall₂_iff_zip]
  by_cases hl : row.length = s.width
  · rw [if_pos hl, Outcome.forM_eq_ok]
    simp only [Column.check_eq_ok, Prod.forall]
    exact ⟨fun h => ⟨hl.symm, @h⟩, fun h => @h.2⟩
  · rw [if_neg hl]
    exact ⟨nofun, fun h => absurd h.1.symm hl⟩

theorem newRows_holds {columns : List String} {groups : List (List String)} {rows : List Row}
    (h : s.newRows columns groups = .ok rows) : ∀ row ∈ rows, s.Holds row := by
  intro row hrow
  obtain ⟨indices, -, h⟩ := Outcome.bind_eq_ok.mp h
  obtain ⟨values, -, hnew⟩ := Outcome.exists_of_mem_mapM h hrow
  unfold newRow at hnew
  split at hnew
  · obtain ⟨_, hc, hr⟩ := Outcome.bind_eq_ok.mp hnew
    cases hr
    exact checkRow_eq_ok.mp hc
  · cases hnew

/-- Values at positions of whose columns they are values. -/
def Suits (s : Schema) (values : List (Nat × String)) : Prop :=
  ∀ p ∈ values, ∀ c, s.columns[p.1]? = some c → c.Holds p.2

theorem resolveAssignments_suits {assignments : List (String × String)}
    {values : List (Nat × String)} (h : s.resolveAssignments assignments = .ok values) :
    s.Suits values := by
  intro p hp c hc
  obtain ⟨assignment, -, h⟩ := Outcome.exists_of_mem_mapM h hp
  obtain ⟨i, -, h⟩ := Outcome.bind_eq_ok.mp h
  obtain ⟨_, hcheck, h⟩ := Outcome.bind_eq_ok.mp h
  cases h
  unfold checkAt at hcheck
  rw [hc] at hcheck
  exact Column.check_eq_ok.mp hcheck

theorem Holds.assign {values : List (Nat × String)} (hv : s.Suits values) (h : s.Holds row) :
    s.Holds (row.assign values) := by
  induction values generalizing row with
  | nil => exact h
  | cons p values ih =>
    obtain ⟨hp, hv⟩ := List.forall_mem_cons.mp hv
    apply ih hv
    obtain ⟨hl, hall⟩ := holds_iff.mp h
    rw [holds_iff]
    refine ⟨by rw [List.length_set, hl], ?_⟩
    intro i c value hc hset
    by_cases hi : p.1 = i
    · subst hi
      obtain ⟨hlt, hset⟩ := List.getElem?_eq_some_iff.mp hset
      rw [List.getElem_set_self] at hset
      exact hset ▸ hp c hc
    · rw [List.getElem?_set_ne hi] at hset
      exact hall i c value hc hset

end Schema

namespace Contents

variable {c c' : Contents}

/-- Contents with a column at least, in which every row is typed. -/
structure WellTyped (c : Contents) : Prop where
  columns : c.schema.columns ≠ []
  rows : ∀ row ∈ c.rows, c.schema.Holds row

theorem WellTyped.check (h : c.WellTyped) : c.check = .ok () :=
  check_eq_ok.mpr fun row hrow => ⟨(h.rows row hrow).length, (h.rows row hrow).storable⟩

theorem WellTyped.decode (h : c.WellTyped) (path : String) : decode path c.encode = .ok c :=
  decode_encode path h.columns h.check

theorem WellTyped.insert (h : c.WellTyped) {rows : List Row}
    (hr : ∀ row ∈ rows, c.schema.Holds row) :
    WellTyped { c with rows := c.rows ++ rows } := by
  refine ⟨h.columns, fun row hrow => ?_⟩
  rcases List.mem_append.mp hrow with hrow | hrow
  · exact h.rows row hrow
  · exact hr row hrow

theorem WellTyped.update (h : c.WellTyped) {assignments : List (String × String)}
    {condition : Option Condition} {count : Nat}
    (hu : c.update assignments condition = .ok (count, c')) : c'.WellTyped := by
  obtain ⟨values, hv, hu⟩ := Outcome.bind_eq_ok.mp hu
  cases hu
  refine ⟨h.columns, fun row hrow => ?_⟩
  obtain ⟨old, hold, rfl⟩ := List.mem_map.mp hrow
  split
  · exact (h.rows old hold).assign (Schema.resolveAssignments_suits hv)
  · exact h.rows old hold

theorem WellTyped.delete (h : c.WellTyped) (condition : Option Condition) :
    (c.delete condition).2.WellTyped :=
  ⟨h.columns, fun row hrow => h.rows row (List.mem_of_mem_filter hrow)⟩

end Contents

end TableStore
