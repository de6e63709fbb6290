import TableStore.Proofs.Command.Reads
import TableStore.Proofs.KeyValue.Storing

/-! The table of the entries as a map. Under a key there is what the first row with that key
holds, whatever else is in the table; storing changes that for one key alone. -/
namespace TableStore

open TableStore.Text TableStore.Sql TableStore.Entries

def Contents.valueUnder (c : Contents) (key : String) : Except Fault (Option String) := do
  let i ← c.schema.index "value"
  return (c.rows.find? ((underKey key).holds c.schema.names)).map (·.getD i "")

namespace Entries

variable {c new : Contents} {key other value old : String} {row : Row} {rows : List Row}
  {i j count : Nat} {db : Database}

/-- A value is the only field of the first selected row. -/
theorem select_value (key : String) (h : c.schema.index "value" = .ok i) :
    (c.select ["value"] (some (underKey key)) none).bind Database.firstRow =
      match c.rows.find? ((underKey key).holds c.schema.names) with
      | some row => .ok [row.getD i ""]
      | none => .error .noRows := by
  have resolved : c.schema.resolve ["value"] = .ok [i] := by
    unfold Schema.resolve
    rw [List.mapM_cons, List.mapM_nil, if_neg (by decide), h]
    rfl
  have selects : c.selects (some (underKey key)) = (underKey key).holds c.schema.names := rfl
  unfold Contents.select
  rw [resolved, Outcome.ok_bind, selects, ← List.head?_filter]
  cases c.rows.filter ((underKey key).holds c.schema.names) <;> rfl

theorem queryRow_selectText (db : Database) (hkey : Unquoted key) :
    db.queryRow (selectText key) =
      (((selectCommand key).effect db.root).map Prod.fst).bind Database.firstRow := by
  have reading : (selectCommand key).isReadOnly = true := rfl
  unfold Database.queryRow Database.query Database.ask
  rw [read_selectText hkey, Outcome.ok_bind, if_pos reading, Command.run_fst]
  rfl

theorem lookup_of_reads (h : db.root.Reads tableName c) (hkey : Unquoted key) :
    lookup db key = c.valueUnder key := by
  have heffect : ((selectCommand key).effect db.root).map Prod.fst =
      c.select ["value"] (some (underKey key)) none := by
    unfold selectCommand
    rw [Command.effect_select h]
    cases c.select ["value"] (some (underKey key)) none <;> rfl
  unfold lookup Contents.valueUnder
  rw [queryRow_selectText db hkey, heffect]
  cases hi : c.schema.index "value" with
  | ok i =>
    rw [select_value key hi]
    cases c.rows.find? ((underKey key).holds c.schema.names) <;> rfl
  | error fault =>
    have hfault : fault = .columnNotFound "value" := by
      unfold Schema.index at hi
      split at hi <;> cases hi
      rfl
    subst hfault
    unfold Contents.select Schema.resolve
    rw [List.mapM_cons, if_neg (by decide), hi]
    rfl

theorem lookup_of_absent (h : db.root.file? (tableFile tableName) = none) (hkey : Unquoted key) :
    lookup db key = .ok none := by
  have heffect : (selectCommand key).effect db.root = .error (.tableNotFound tableName) := by
    have named : isTableName tableName = true := by decide
    show db.root.onTable tableName _ = _
    unfold Root.onTable
    rw [db.root.tablePath_of_isTableName named, Outcome.ok_bind, h]
  unfold lookup
  rw [queryRow_selectText db hkey, heffect]
  rfl

theorem holds_iff {names : List String} (h : names.idxOf? "key" = some j) :
    (underKey key).holds names row = true ↔ row[j]? = some key := by
  unfold Condition.holds underKey
  simp only [h, Option.bind_some]
  cases row[j]? <;> simp [Comparison.holds]

theorem exists_key_of_holds {names : List String} (h : (underKey key).holds names row = true) :
    ∃ j, names.idxOf? "key" = some j := by
  cases hj : names.idxOf? "key" with
  | some j => exact ⟨j, rfl⟩
  | none =>
    unfold Condition.holds underKey at h
    simp [hj] at h

theorem index_value_ne_key {names : List String} (hi : names.idxOf? "value" = some i)
    (hj : names.idxOf? "key" = some j) : i ≠ j := by
  rintro rfl
  obtain ⟨_, hvalue, -⟩ := List.idxOf?_eq_some_iff.mp hi
  obtain ⟨_, hkey, -⟩ := List.idxOf?_eq_some_iff.mp hj
  exact absurd (hvalue.symm.trans hkey) (by decide)

/-- A new value in a row does not change its key. -/
theorem holds_set {names : List String} (hi : names.idxOf? "value" = some i) (value : String) :
    (underKey key).holds names (row.set i value) = (underKey key).holds names row := by
  cases hj : names.idxOf? "key" with
  | none =>
    unfold Condition.holds underKey
    simp [hj]
  | some j =>
    rw [Bool.eq_iff_iff, holds_iff hj, holds_iff hj,
      List.getElem?_set_ne (index_value_ne_key hi hj)]

/-- A row has one key. -/
theorem holds_of_ne {names : List String} (hne : other ≠ key)
    (h : (underKey other).holds names row = true) : (underKey key).holds names row = false := by
  obtain ⟨j, hj⟩ := exists_key_of_holds h
  rw [holds_iff hj] at h
  rw [Bool.eq_false_iff, ne_eq, holds_iff hj, h]
  intro heq
  exact hne (Option.some.inj heq)

section Update

/-- The row after a new value was stored under a key. -/
def restored (names : List String) (key value : String) (i : Nat) (row : Row) : Row :=
  if (underKey key).holds names row then row.set i value else row

theorem update_eq_ok (h : c.update [("value", value)] (some (underKey key)) = .ok (count, new)) :
    ∃ i, c.schema.index "value" = .ok i ∧
      new = ⟨c.schema, c.rows.map (restored c.schema.names key value i)⟩ := by
  unfold Contents.update at h
  obtain ⟨values, hvalues, h⟩ := Outcome.bind_eq_ok.mp h
  unfold Schema.resolveAssignments at hvalues
  rw [List.mapM_cons, List.mapM_nil] at hvalues
  obtain ⟨p, hp, hvalues⟩ := Outcome.bind_eq_ok.mp hvalues
  obtain ⟨i, hi, hp⟩ := Outcome.bind_eq_ok.mp hp
  obtain ⟨_, -, hp⟩ := Outcome.bind_eq_ok.mp hp
  cases hp
  cases hvalues
  cases h
  exact ⟨i, hi, rfl⟩

theorem find?_restored (hi : c.schema.index "value" = .ok i) :
    (c.rows.map (restored c.schema.names key value i)).find?
        ((underKey other).holds c.schema.names) =
      (c.rows.find? ((underKey other).holds c.schema.names)).map
        (restored c.schema.names key value i) := by
  rw [List.find?_map]
  congr 1
  congr 1
  funext row
  unfold Function.comp restored
  split
  · exact holds_set (Schema.index_eq_ok.mp hi) value
  · rfl

theorem valueUnder_update_self (hlength : ∀ row ∈ c.rows, row.length = c.schema.width)
    (h : c.update [("value", value)] (some (underKey key)) = .ok (count, new))
    (found : c.valueUnder key = .ok (some old)) : new.valueUnder key = .ok (some value) := by
  obtain ⟨i, hi, rfl⟩ := update_eq_ok h
  unfold Contents.valueUnder at found ⊢
  simp only [hi, Outcome.ok_bind, find?_restored hi] at found ⊢
  cases hf : c.rows.find? ((underKey key).holds c.schema.names) with
  | none =>
    rw [hf] at found
    cases found
  | some row =>
    have width : i < row.length := by
      rw [hlength row (List.mem_of_find?_eq_some hf)]
      exact Schema.index_lt hi
    have under : (underKey key).holds c.schema.names row = true := List.find?_some hf
    simp [restored, under, width]
    rfl

theorem valueUnder_update_of_ne (hne : other ≠ key)
    (h : c.update [("value", value)] (some (underKey key)) = .ok (count, new)) :
    new.valueUnder other = c.valueUnder other := by
  obtain ⟨i, hi, rfl⟩ := update_eq_ok h
  unfold Contents.valueUnder
  simp only [hi, Outcome.ok_bind, find?_restored hi]
  cases hf : c.rows.find? ((underKey other).holds c.schema.names) with
  | none => rfl
  | some row =>
    have apart := holds_of_ne hne (List.find?_some hf)
    simp [restored, apart]

end Update

section Insert

/-- The row that an insertion of a key and a value adds. -/
structure Added (s : Schema) (key value : String) (row : Row) : Prop where
  key : ∃ j, s.names.idxOf? "key" = some j ∧ row[j]? = some key
  value : ∃ i, s.index "value" = .ok i ∧ row.getD i "" = value

theorem added_of_newRows (h : c.schema.newRows ["key", "value"] [[key, value]] = .ok rows) :
    ∃ row, rows = [row] ∧ Added c.schema key value row := by
  obtain ⟨indices, hindices, h⟩ := Outcome.bind_eq_ok.mp h
  rw [Outcome.mapM_eq_ok] at hindices h
  obtain ⟨j, more, hj, hmore, rfl⟩ := List.forall₂_cons_left_iff.mp hindices
  obtain ⟨i, none, hi, hnone, rfl⟩ := List.forall₂_cons_left_iff.mp hmore
  obtain rfl := List.forall₂_nil_left_iff.mp hnone
  obtain ⟨row, none, hrow, hnone, rfl⟩ := List.forall₂_cons_left_iff.mp h
  obtain rfl := List.forall₂_nil_left_iff.mp hnone
  refine ⟨row, rfl, ?_⟩
  have counts : [key, value].length = [j, i].length := rfl
  unfold Schema.newRow at hrow
  rw [if_pos counts] at hrow
  obtain ⟨_, -, hrow⟩ := Outcome.bind_eq_ok.mp hrow
  cases hrow
  have distinct : ([(j, key), (i, value)].map Prod.fst).Nodup := by
    have := index_value_ne_key (Schema.index_eq_ok.mp hi) (Schema.index_eq_ok.mp hj)
    simp [Ne.symm this]
  have assigned {k : Nat} {text : String} (hk : k < c.schema.width)
      (hmem : (k, text) ∈ [(j, key), (i, value)]) :
      (Row.assign (List.replicate c.schema.width "") [(j, key), (i, value)])[k]? = some text :=
    Row.getElem?_assign distinct (by simpa using hk) hmem
  refine ⟨⟨j, Schema.index_eq_ok.mp hj, assigned (Schema.index_lt hj) (by simp)⟩, i, hi, ?_⟩
  have second : (i, value) ∈ [(j, key), (i, value)] := by simp
  have hvalue := assigned (Schema.index_lt hi) second
  show (Row.assign (List.replicate c.schema.width "") [(j, key), (i, value)]).getD i "" = value
  rw [List.getD_eq_getElem?_getD, hvalue]
  rfl

theorem valueUnder_append (c : Contents) (row : Row) (key : String) :
    Contents.valueUnder ⟨c.schema, c.rows ++ [row]⟩ key = do
      let i ← c.schema.index "value"
      return ((c.rows.find? ((underKey key).holds c.schema.names)).or
        (if (underKey key).holds c.schema.names row then some row else none)).map
          (·.getD i "") := by
  unfold Contents.valueUnder
  simp only [List.find?_append, List.find?_singleton]

theorem valueUnder_insert_self (added : Added c.schema key value row)
    (absent : c.valueUnder key = .ok none) :
    Contents.valueUnder ⟨c.schema, c.rows ++ [row]⟩ key = .ok (some value) := by
  obtain ⟨⟨j, hj, hkey⟩, i, hi, hvalue⟩ := added
  have under : (underKey key).holds c.schema.names row = true := (holds_iff hj).mpr hkey
  unfold Contents.valueUnder at absent
  rw [valueUnder_append]
  rw [hi, Outcome.ok_bind] at absent ⊢
  cases hf : c.rows.find? ((underKey key).holds c.schema.names) with
  | some found =>
    rw [hf] at absent
    cases absent
  | none =>
    rw [Option.none_or, if_pos under, ← hvalue]
    rfl

theorem valueUnder_insert_of_ne (hne : other ≠ key) (added : Added c.schema key value row) :
    Contents.valueUnder ⟨c.schema, c.rows ++ [row]⟩ other = c.valueUnder other := by
  obtain ⟨⟨j, hj, hkey⟩, -⟩ := added
  have apart : (underKey other).holds c.schema.names row = false :=
    holds_of_ne (Ne.symm hne) ((holds_iff hj).mpr hkey)
  rw [valueUnder_append, apart]
  simp [Contents.valueUnder]

end Insert

end Entries

end TableStore
