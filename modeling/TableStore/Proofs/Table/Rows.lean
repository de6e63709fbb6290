import Mathlib.Data.List.Nodup
import TableStore.Proofs.Table.Typed

/-! Rows field by field. Assignments to different columns do not meet, and the last one to a column
stays; whole rows, listed under the names of their columns, are inserted as they are. -/
namespace TableStore

namespace Row

variable {row : Row} {values : List (Nat × String)} {i : Nat} {value : String}

theorem length_assign (row : Row) (values : List (Nat × String)) :
    (row.assign values).length = row.length := by
  induction values generalizing row with
  | nil => rfl
  | cons p values ih => exact (ih (row.set p.1 p.2)).trans List.length_set

theorem getElem?_assign_of_notMem (h : i ∉ values.map Prod.fst) :
    (row.assign values)[i]? = row[i]? := by
  induction values generalizing row with
  | nil => rfl
  | cons p values ih =>
    rw [List.map_cons, List.mem_cons, not_or] at h
    exact (ih h.2).trans (List.getElem?_set_ne (Ne.symm h.1))

/-- The last value for a position stays. -/
theorem getElem?_assign_last {before later : List (Nat × String)} (hi : i < row.length)
    (h : i ∉ later.map Prod.fst) :
    (row.assign (before ++ (i, value) :: later))[i]? = some value := by
  have steps : row.assign (before ++ (i, value) :: later) =
      Row.assign ((row.assign before).set i value) later := List.foldl_append
  rw [steps, getElem?_assign_of_notMem h]
  exact List.getElem?_set_self (by rwa [length_assign])

theorem getElem?_assign (hd : (values.map Prod.fst).Nodup) (hi : i < row.length)
    (h : (i, value) ∈ values) : (row.assign values)[i]? = some value := by
  obtain ⟨before, later, rfl⟩ := List.append_of_mem h
  rw [List.map_append, List.map_cons] at hd
  exact getElem?_assign_last hi (List.nodup_cons.mp hd.of_append_right).1

/-- Of what is listed for one place, something is listed last. -/
theorem exists_last {κ β : Type} {l : List (κ × β)} {k : κ} (h : k ∈ l.map Prod.fst) :
    ∃ before b later, l = before ++ (k, b) :: later ∧ k ∉ later.map Prod.fst := by
  induction l with
  | nil => cases h
  | cons p l ih =>
    by_cases again : k ∈ l.map Prod.fst
    · obtain ⟨before, b, later, rfl, hlast⟩ := ih again
      exact ⟨p :: before, b, later, rfl, hlast⟩
    · rw [List.map_cons, List.mem_cons] at h
      obtain rfl := h.resolve_right again
      exact ⟨[], p.2, l, rfl, again⟩

/-- Values that were assigned once are there. -/
theorem assign_assign (row : Row) (values : List (Nat × String)) :
    (row.assign values).assign values = row.assign values := by
  apply List.ext_getElem?
  intro i
  by_cases h : i ∈ values.map Prod.fst
  · obtain ⟨before, value, later, rfl, hlast⟩ := exists_last h
    rcases Nat.lt_or_ge i row.length with hi | hi
    · rw [getElem?_assign_last (by rwa [length_assign]) hlast, getElem?_assign_last hi hlast]
    · rw [List.getElem?_eq_none (by rwa [length_assign, length_assign]),
        List.getElem?_eq_none (by rwa [length_assign])]
  · exact getElem?_assign_of_notMem h

/-- A value for every position leaves nothing of the row before. -/
theorem assign_range {new : Row} (h : new.length = row.length) :
    row.assign ((List.range row.length).zip new) = new := by
  have distinct : (((List.range row.length).zip new).map Prod.fst).Nodup := by
    rw [List.map_fst_zip (by simp [h])]
    exact List.nodup_range
  apply List.ext_getElem?
  intro i
  rcases Nat.lt_or_ge i row.length with hi | hi
  · have hi' : i < new.length := h.symm ▸ hi
    have hmem : (i, new[i]) ∈ (List.range row.length).zip new :=
      List.mem_iff_getElem.mpr ⟨i, by simp; omega, by simp⟩
    rw [getElem?_assign distinct hi hmem, List.getElem?_eq_getElem hi']
  · rw [List.getElem?_eq_none (by rwa [length_assign]), List.getElem?_eq_none (h.symm ▸ hi)]

theorem project_range (row : Row) : row.project (List.range row.length) = row := by
  apply List.ext_getElem
  · simp [project]
  · intro i hi hi'
    simp [project, List.getD_eq_getElem?_getD, hi']

end Row

namespace Schema

variable {s : Schema} {rows : List Row}

theorem index_eq_ok {name : String} {i : Nat} : s.index name = .ok i ↔
    s.names.idxOf? name = some i := by
  unfold index index?
  cases s.names.idxOf? name <;> simp

theorem index_eq_ok_iff_idxOf {name : String} {i : Nat} : s.index name = .ok i ↔
    name ∈ s.names ∧ s.names.idxOf name = i := by
  rw [index_eq_ok, List.idxOf_eq_getD_idxOf?, ← List.isSome_idxOf?]
  cases s.names.idxOf? name <;> simp

theorem index_lt {name : String} {i : Nat} (h : s.index name = .ok i) : i < s.width := by
  obtain ⟨hi, -, -⟩ := List.idxOf?_eq_some_iff.mp (index_eq_ok.mp h)
  rwa [length_names] at hi

/-- A projection is to columns that are there. -/
theorem lt_of_resolve {columns : List String} {indices : List Nat}
    (h : s.resolve columns = .ok indices) : ∀ i ∈ indices, i < s.width := by
  obtain ⟨groups, hgroups, hflat⟩ := Outcome.bind_eq_ok.mp h
  obtain rfl := Outcome.pure_eq_ok.mp hflat
  intro i hi
  obtain ⟨group, hgroup, hi⟩ := List.mem_flatten.mp hi
  obtain ⟨column, -, hcolumn⟩ := Outcome.exists_of_mem_mapM hgroups hgroup
  split at hcolumn
  · cases hcolumn
    exact List.mem_range.mp hi
  · obtain ⟨j, hj, rfl⟩ := Outcome.map_eq_ok.mp hcolumn
    obtain rfl := List.mem_singleton.mp hi
    exact index_lt hj

/-- So are assignments. -/
theorem lt_of_resolveAssignments {assignments : List (String × String)}
    {values : List (Nat × String)} (h : s.resolveAssignments assignments = .ok values) :
    ∀ p ∈ values, p.1 < s.width := by
  intro p hp
  obtain ⟨assignment, -, h⟩ := Outcome.exists_of_mem_mapM h hp
  obtain ⟨i, hi, h⟩ := Outcome.bind_eq_ok.mp h
  obtain ⟨_, -, h⟩ := Outcome.bind_eq_ok.mp h
  cases h
  exact index_lt hi

/-- What is listed last for a name stays in the first column with that name. -/
theorem getElem?_assign_named {row : Row} {before later : List (String × String)}
    {name value : String} (hrow : row.length = s.width)
    (known : ∀ p ∈ (name, value) :: later, p.1 ∈ s.names) (hlast : name ∉ later.map Prod.fst) :
    (row.assign ((before ++ (name, value) :: later).map
      (Prod.map (fun name => s.names.idxOf name) id)))[s.names.idxOf name]? = some value := by
  rw [List.forall_mem_cons] at known
  have hi : s.names.idxOf name < row.length := by
    rw [hrow, ← s.length_names]
    exact List.idxOf_lt_length_of_mem known.1
  rw [List.map_append, List.map_cons]
  refine Row.getElem?_assign_last hi fun hmem => ?_
  rw [List.map_map] at hmem
  obtain ⟨p, hp, he⟩ := List.mem_map.mp hmem
  have same : p.1 = name := (List.idxOf_inj (known.2 p hp)).mp he
  exact hlast (List.mem_map.mpr ⟨p, hp, same⟩)

/-- Names that differ stand for the positions of their columns. -/
theorem mapM_index_names (h : s.names.Nodup) :
    s.names.mapM s.index = .ok (List.range s.width) := by
  rw [Outcome.mapM_eq_ok, List.forall₂_iff_get]
  refine ⟨by simp, fun i hi hi' => ?_⟩
  rw [index_eq_ok, List.idxOf?_eq_some_iff]
  simp only [List.get_eq_getElem, List.getElem_range]
  refine ⟨hi, trivial, fun j hj he => ?_⟩
  exact Nat.ne_of_lt hj ((List.Nodup.getElem_inj_iff h).mp he)

theorem newRow_range {row : Row} (h : s.Holds row) :
    s.newRow (List.range s.width) row = .ok row := by
  have hassign : Row.assign (List.replicate s.width "") ((List.range s.width).zip row) = row := by
    have hlength : row.length = (List.replicate s.width "").length := by simp [h.length]
    have := Row.assign_range hlength
    rwa [List.length_replicate] at this
  unfold newRow
  rw [if_pos (by simp [h.length])]
  simp only [hassign]
  rw [checkRow_eq_ok.mpr h]
  rfl

theorem newRows_names (hn : s.names.Nodup) (h : ∀ row ∈ rows, s.Holds row) :
    s.newRows s.names rows = .ok rows := by
  unfold newRows
  rw [mapM_index_names hn, Outcome.ok_bind, Outcome.mapM_eq_ok]
  exact List.forall₂_same.mpr fun row hrow => newRow_range (h row hrow)

end Schema

end TableStore
