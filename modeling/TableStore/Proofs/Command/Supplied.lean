import TableStore.Proofs.Command.Reads

/-! What an insertion makes of the values it is given. A new row is checked as a whole, and
it holds the last value that is listed for a column: one that was listed before it for the
same column is neither checked nor kept. -/
namespace TableStore

open TableStore.Text TableStore.Sql

namespace Schema

variable {s : Schema} {columns : List String} {group : List String} {row : Row}
  {column value other : String} {indices : List Nat} {i : Nat}

/-- A row holds a value in the column with a name, and the column can hold it. -/
def Keeps (s : Schema) (row : Row) (column value : String) : Prop :=
  ∃ i c, s.index column = .ok i ∧ s.columns[i]? = some c ∧ c.Holds value ∧ row[i]? = some value

/-- A row keeps every value that a group supplies. -/
def KeepsAll (s : Schema) (columns group : List String) (row : Row) : Prop :=
  ∀ p ∈ columns.zip group, s.Keeps row p.1 p.2

/-- A row keeps what a group supplies last for each column. -/
def KeepsLast (s : Schema) (columns group : List String) (row : Row) : Prop :=
  ∀ before column value later, columns.zip group = before ++ (column, value) :: later →
    column ∉ later.map Prod.fst → s.Keeps row column value

theorem Keeps.unique (h : s.Keeps row column value) (h' : s.Keeps row column other) :
    value = other := by
  obtain ⟨i, -, hi, -, -, hrow⟩ := h
  obtain ⟨j, -, hj, -, -, hrow'⟩ := h'
  cases hi.symm.trans hj
  exact Option.some.inj (hrow.symm.trans hrow')

theorem mapM_index_eq_ok : columns.mapM s.index = .ok indices ↔
    (∀ column ∈ columns, column ∈ s.names) ∧
      columns.map (fun column => s.names.idxOf column) = indices := by
  rw [Outcome.mapM_eq_ok]
  simp only [index_eq_ok_iff_idxOf]
  rw [List.forall₂_and_left, ← List.forall₂_eq_eq_eq, List.forall₂_map_left_iff]

theorem newRow_eq_ok : s.newRow indices group = .ok row ↔ group.length = indices.length ∧
    row = Row.assign (List.replicate s.width "") (indices.zip group) ∧ s.Holds row := by
  unfold newRow
  split
  · next hlength =>
    rw [Outcome.bind_eq_ok]
    constructor
    · rintro ⟨_, hcheck, hrow⟩
      cases hrow
      exact ⟨hlength, rfl, checkRow_eq_ok.mp hcheck⟩
    · rintro ⟨-, rfl, holds⟩
      exact ⟨(), checkRow_eq_ok.mpr holds, rfl⟩
  · next hlength => simp [hlength]

theorem keepsLast_of_newRow (hcolumns : columns.mapM s.index = .ok indices)
    (h : s.newRow indices group = .ok row) : s.KeepsLast columns group row := by
  obtain ⟨-, hrow, holds⟩ := newRow_eq_ok.mp h
  obtain ⟨known, rfl⟩ := mapM_index_eq_ok.mp hcolumns
  intro before column value later hcut hlast
  have supplied : ∀ p ∈ (column, value) :: later, p.1 ∈ s.names := by
    intro p hp
    have hzip : p ∈ columns.zip group := hcut ▸ List.mem_append_right before hp
    exact known p.1 (List.of_mem_zip hzip).1
  have hindex : s.index column = .ok (s.names.idxOf column) :=
    index_eq_ok_iff_idxOf.mpr ⟨supplied _ List.mem_cons_self, rfl⟩
  have hi := index_lt hindex
  have assigned : row[s.names.idxOf column]? = some value := by
    rw [hrow, List.zip_map_left, hcut]
    exact getElem?_assign_named List.length_replicate supplied hlast
  refine ⟨_, _, hindex, List.getElem?_eq_getElem hi, ?_, assigned⟩
  exact (holds_iff.mp holds).2 _ _ _ (List.getElem?_eq_getElem hi) assigned

/-- No column is given two different values. -/
def Consistent (columns group : List String) : Prop :=
  ∀ p ∈ columns.zip group, ∀ q ∈ columns.zip group, p.1 = q.1 → p.2 = q.2

instance (columns group : List String) : Decidable (Consistent columns group) :=
  inferInstanceAs (Decidable (∀ p ∈ columns.zip group, ∀ q ∈ columns.zip group, _ → _))

theorem KeepsLast.keepsAll_iff (last : s.KeepsLast columns group row) :
    s.KeepsAll columns group row ↔ Consistent columns group := by
  constructor
  · intro all p hp q hq same
    have hkeeps := all p hp
    rw [same] at hkeeps
    exact hkeeps.unique (all q hq)
  · intro consistent p hp
    obtain ⟨before, value, later, hcut, hlast⟩ :=
      Row.exists_last (List.mem_map_of_mem (f := Prod.fst) hp)
    have hq : (p.1, value) ∈ columns.zip group := by
      rw [hcut]
      exact List.mem_append_right _ List.mem_cons_self
    rw [consistent p hp _ hq rfl]
    exact last before p.1 value later hcut hlast

theorem newRows_eq_ok {groups : List (List String)} {rows : List Row} :
    s.newRows columns groups = .ok rows ↔ ∃ indices, columns.mapM s.index = .ok indices ∧
      List.Forall₂ (fun group row => s.newRow indices group = .ok row) groups rows := by
  unfold newRows
  simp only [Outcome.bind_eq_ok, Outcome.mapM_eq_ok]

end Schema

namespace Command

variable {root after : Root} {table : String} {columns : List String}
  {groups : List (List String)} {answer : Answer}

/-- An insertion that succeeds adds one row for each group. The row keeps what the group
supplies last for each column; it keeps all that is supplied if and only if no column is
given two different values. -/
theorem insert_keepsAll_iff (h : (insert table columns groups).run root = (.ok answer, after)) :
    ∃ c rows, Table.contents ⟨table⟩ root = .ok c ∧
      Table.contents ⟨table⟩ after = .ok ⟨c.schema, c.rows ++ rows⟩ ∧
      List.Forall₂ (fun group row => group.length = columns.length ∧
        c.schema.KeepsLast columns group row ∧
        (c.schema.KeepsAll columns group row ↔ Schema.Consistent columns group)) groups rows := by
  obtain ⟨written, heffect⟩ := run_eq_ok.mp (congrArg Prod.fst h)
  have changing : (insert table columns groups).verb ≠ .create := nofun
  obtain ⟨c, reads⟩ : ∃ c, root.Reads table c := exists_reads_of_effect changing heffect
  obtain ⟨rows, hrows, hcheck, -, rfl⟩ := (effect_insert_eq_ok reads).mp heffect
  rw [run_of_effect_ok heffect] at h
  cases h
  have hafter : Root.Reads _ table ⟨c.schema, c.rows ++ rows⟩ :=
    reads.withFile reads.columns hcheck
  refine ⟨c, rows, reads.contents, hafter.contents, ?_⟩
  obtain ⟨indices, hcolumns, hall⟩ := Schema.newRows_eq_ok.mp hrows
  refine hall.imp fun group row hrow => ?_
  have last := Schema.keepsLast_of_newRow hcolumns hrow
  have counts : indices.length = columns.length := by
    rw [← (Schema.mapM_index_eq_ok.mp hcolumns).2, List.length_map]
  exact ⟨(Schema.newRow_eq_ok.mp hrow).1.trans counts, last, last.keepsAll_iff⟩

/-- One row in which a column is given the same value twice, and one in which it is not. -/
theorem insert_keepsAll_iff_twice :
    let root : Root :=
      ⟨"db", .directory (Directory.empty.put "t.csv" (.file "a,b\nint64,string\n1,x\n".toUTF8))⟩
    let c : Contents := ⟨⟨[⟨"a", .int64⟩, ⟨"b", .text⟩], by decide⟩, [["1", "x"]]⟩
    let columns := ["b", "a", "b"]
    ∃ answer after, (insert "t" columns [["y", "2", "y"], ["y", "3", "z"]]).run root =
        (.ok answer, after) ∧
      Table.contents ⟨"t"⟩ after = .ok ⟨c.schema, c.rows ++ [["2", "y"], ["3", "z"]]⟩ ∧
      c.schema.KeepsAll columns ["y", "2", "y"] ["2", "y"] ∧
      ¬c.schema.KeepsAll columns ["y", "3", "z"] ["3", "z"] := by
  intro root c columns
  let command := insert "t" columns [["y", "2", "y"], ["y", "3", "z"]]
  have served : ((command.run root).1.toOption).isSome = true := by decide +kernel
  obtain ⟨answer, hok⟩ := Option.isSome_iff_exists.mp served
  have hrun : command.run root = (.ok answer, (command.run root).2) :=
    Prod.ext (Outcome.toOption_eq_some.mp hok) rfl
  have before : Table.contents ⟨"t"⟩ root = .ok c :=
    Outcome.toOption_eq_some.mp (by decide +kernel)
  have held : Table.contents ⟨"t"⟩ (command.run root).2 =
      .ok ⟨c.schema, c.rows ++ [["2", "y"], ["3", "z"]]⟩ :=
    Outcome.toOption_eq_some.mp (by decide +kernel)
  obtain ⟨d, rows, hd, hafter, all⟩ := insert_keepsAll_iff hrun
  obtain rfl : c = d := Except.ok.inj (before.symm.trans hd)
  have hrows := congrArg Contents.rows (Except.ok.inj (hafter.symm.trans held))
  obtain rfl := List.append_cancel_left hrows
  obtain ⟨⟨-, -, kept⟩, rest⟩ := List.forall₂_cons.mp all
  obtain ⟨⟨-, -, dropped⟩, -⟩ := List.forall₂_cons.mp rest
  exact ⟨answer, _, hrun, held, kept.mpr (by decide), mt dropped.mp (by decide)⟩

/-- A text for an integer column is taken if the column is listed once more. -/
theorem insert_repeated_column_unchecked :
    let root : Root :=
      ⟨"db", .directory (Directory.empty.put "t.csv" (.file "a\nint64\n".toUTF8))⟩
    let command := insert "t" ["a", "a"] [["x", "2"]]
    let c : Contents := ⟨⟨[⟨"a", .int64⟩], by decide⟩, [["2"]]⟩
    Command.read "INSERT INTO t (a, a) VALUES ('x', '2')" = .ok command ∧
      (command.run root).1 = .ok (counted 1 "inserted") ∧
      Table.contents ⟨"t"⟩ (command.run root).2 = .ok c ∧
      ColumnType.int64.accepts "x" = false ∧ ¬c.schema.KeepsAll ["a", "a"] ["x", "2"] ["2"] := by
  intro root command c
  refine ⟨Outcome.toOption_eq_some.mp (by decide +kernel),
    Outcome.toOption_eq_some.mp (by decide +kernel),
    Outcome.toOption_eq_some.mp (by decide +kernel), by decide, fun all => ?_⟩
  obtain ⟨i, -, -, -, -, hrow⟩ := all ("a", "x") (by decide)
  exact absurd (List.mem_of_getElem? hrow) (by decide)

end Command

end TableStore
