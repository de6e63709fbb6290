import TableStore.Proofs.Table.Matching
import TableStore.Proofs.Table.Rows
import TableStore.Proofs.Table.Stored

/-! Selections. What one comes to is said without positions: fields are known by the names of
their columns, and rows in order are a stable arrangement by their fields under one name. -/
namespace TableStore

open TableStore.Sql

/-- A list in ascending order of a key; elements with the same key keep their order. -/
structure StablySorted (key : α → String) (l sorted : List α) : Prop where
  perm : sorted.Perm l
  ascending : sorted.Pairwise fun a b => key a ≤ key b
  stable : ∀ text, sorted.filter (key · = text) = l.filter (key · = text)

namespace StablySorted

variable {key key' : α → String} {l sorted : List α}

theorem mergeSort (key : α → String) (l : List α) :
    StablySorted key l (l.mergeSort fun a b => decide (key a ≤ key b)) := by
  have trans : ∀ a b c : α, decide (key a ≤ key b) = true → decide (key b ≤ key c) = true →
      decide (key a ≤ key c) = true := by
    simpa using fun a b c => String.le_trans (a := key a) (b := key b) (c := key c)
  have total : ∀ a b : α, (decide (key a ≤ key b) || decide (key b ≤ key a)) = true := by
    simpa using fun a b => String.le_total (key a) (key b)
  have perm := List.mergeSort_perm l fun a b => decide (key a ≤ key b)
  refine ⟨perm, ?_, fun text => ?_⟩
  · simpa using List.pairwise_mergeSort trans total l
  · -- elements with one key are in order as they stand, so sorting keeps their list
    have level : (l.filter (key · = text)).Pairwise fun a b => decide (key a ≤ key b) = true := by
      rw [List.pairwise_filter]
      refine List.pairwise_of_forall fun a b ha hb => ?_
      rw [of_decide_eq_true ha, of_decide_eq_true hb]
      simp
    have kept := (List.sublist_mergeSort trans total level List.filter_sublist).filter
      (key · = text)
    rw [List.filter_filter] at kept
    simp only [Bool.and_self] at kept
    exact (kept.eq_of_length (perm.filter _).length_eq.symm).symm

theorem congr (h : StablySorted key l sorted) (same : ∀ a ∈ l, key a = key' a) :
    StablySorted key' l sorted := by
  have same' : ∀ a ∈ sorted, key a = key' a := fun a ha => same a (h.perm.mem_iff.mp ha)
  refine ⟨h.perm, ?_, fun text => ?_⟩
  · refine h.ascending.imp_of_mem fun {a b} ha hb hle => ?_
    rwa [← same' a ha, ← same' b hb]
  · rw [← List.filter_congr fun a ha => congrArg (decide <| · = text) (same' a ha), h.stable text]
    exact List.filter_congr fun a ha => congrArg (decide <| · = text) (same a ha)

/-- A list can be put in order in one way only. -/
theorem unique {other : List α} (h : StablySorted key l sorted) (h' : StablySorted key l other) :
    sorted = other := by
  have level := fun text => (h.stable text).trans (h'.stable text).symm
  obtain ⟨perm, ascending, -⟩ := h
  obtain ⟨perm', ascending', -⟩ := h'
  replace perm := perm.trans perm'.symm
  clear perm'
  induction sorted generalizing other with
  | nil => exact perm.symm.eq_nil.symm
  | cons a sorted ih =>
    obtain ⟨b, other, rfl⟩ := List.exists_cons_of_ne_nil fun e : other = [] => by simp [e] at perm
    rw [List.pairwise_cons] at ascending ascending'
    have hab : key a ≤ key b := by
      rcases List.mem_cons.mp (perm.mem_iff.mpr List.mem_cons_self) with rfl | hb
      · exact String.le_refl _
      · exact ascending.1 b hb
    have hba : key b ≤ key a := by
      rcases List.mem_cons.mp (perm.mem_iff.mp List.mem_cons_self) with rfl | ha
      · exact String.le_refl _
      · exact ascending'.1 a ha
    have hkey : key b = key a := String.le_antisymm hba hab
    -- both heads have the least key, and of the elements with that key one comes first
    have heads := level (key a)
    simp only [List.filter_cons, hkey, decide_true, if_true] at heads
    obtain ⟨rfl, -⟩ := List.cons.inj heads
    congr 1
    refine ih (fun text => ?_) ascending.2 ascending'.2 perm.cons_inv
    have := level text
    by_cases h : key a = text
    · simpa [List.filter_cons, h] using this
    · simpa [List.filter_cons, h] using this

end StablySorted

namespace Schema

/-- A projected name that stands for columns. -/
def Knows (s : Schema) (column : String) : Prop :=
  column = "*" ∨ column ∈ s.names

instance (s : Schema) : DecidablePred s.Knows :=
  fun column => inferInstanceAs (Decidable (column = "*" ∨ column ∈ s.names))

/-- The columns that a projection shows: a star shows all of them in its place. -/
def shownNames (s : Schema) (columns : List String) : List String :=
  columns.flatMap fun column => if column = "*" then s.names else [column]

def shownFields (s : Schema) (columns : List String) (row : Row) : Row :=
  columns.flatMap fun column =>
    if column = "*" then row else (row.field? s.names column).toList

variable {s : Schema} {columns before after : List String} {column name : String}
  {indices : List Nat} {row : Row}

/-- The positions that one projected name stands for. -/
def positions (s : Schema) (column : String) : Except Fault (List Nat) :=
  if column = "*" then .ok (List.range s.width) else (s.index column).map ([·])

theorem resolve_eq (s : Schema) (columns : List String) :
    s.resolve columns = (columns.mapM s.positions).map List.flatten := by
  show (columns.mapM s.positions >>= fun groups => pure groups.flatten) = _
  cases columns.mapM s.positions <;> rfl

theorem resolve_cons (s : Schema) (column : String) (columns : List String) :
    s.resolve (column :: columns) =
      (s.positions column).bind fun group => (s.resolve columns).map (group ++ ·) := by
  rw [resolve_eq, resolve_eq, List.mapM_cons]
  cases s.positions column <;> cases columns.mapM s.positions <;> rfl

theorem positions_of_knows (h : s.Knows column) : ∃ group, s.positions column = .ok group ∧
    ∀ row : Row, row.length = s.width → row.project group =
      if column = "*" then row else (row.field? s.names column).toList := by
  unfold positions
  by_cases star : column = "*"
  · simp only [star, if_true]
    exact ⟨_, rfl, fun row hrow => hrow ▸ Row.project_range row⟩
  · obtain ⟨i, hi⟩ := Option.isSome_iff_exists.mp (List.isSome_idxOf?.mpr (h.resolve_left star))
    have hindex := index_eq_ok.mpr hi
    simp only [star, if_false, hindex]
    refine ⟨_, rfl, fun row hrow => ?_⟩
    have hlt : i < row.length := hrow ▸ index_lt hindex
    rw [Row.field?_eq, hi]
    simp [Row.project, hlt]

theorem positions_of_not_knows (h : ¬s.Knows column) :
    s.positions column = .error (.columnNotFound column) := by
  rw [Knows, not_or] at h
  unfold positions index index?
  rw [if_neg h.1, List.idxOf?_eq_none_iff.mpr h.2]
  rfl

/-- Positions for a projection show what its names show. -/
theorem resolve_of_knows (h : ∀ column ∈ columns, s.Knows column) :
    ∃ indices, s.resolve columns = .ok indices ∧
      ∀ row : Row, row.length = s.width → row.project indices = s.shownFields columns row := by
  induction columns with
  | nil => exact ⟨[], rfl, fun _ _ => rfl⟩
  | cons column columns ih =>
    rw [List.forall_mem_cons] at h
    obtain ⟨group, hgroup, hfirst⟩ := positions_of_knows h.1
    obtain ⟨indices, hindices, hrest⟩ := ih h.2
    refine ⟨group ++ indices, ?_, fun row hrow => ?_⟩
    · rw [resolve_cons, hgroup, hindices]
      rfl
    · rw [shownFields, List.flatMap_cons, ← hfirst row hrow]
      exact List.map_append.trans (congrArg (row.project group ++ ·) (hrest row hrow))

/-- The first name that stands for no column is the one that is refused. -/
theorem resolve_of_not_knows (hbefore : ∀ column ∈ before, s.Knows column)
    (hname : ¬s.Knows name) (after : List String) :
    s.resolve (before ++ name :: after) = .error (.columnNotFound name) := by
  induction before with
  | nil =>
    rw [List.nil_append, resolve_cons, positions_of_not_knows hname]
    rfl
  | cons column before ih =>
    rw [List.forall_mem_cons] at hbefore
    obtain ⟨group, hgroup, -⟩ := positions_of_knows hbefore.1
    rw [List.cons_append, resolve_cons, hgroup, ih hbefore.2]
    rfl

theorem knows_cases (s : Schema) (columns : List String) :
    (∀ column ∈ columns, s.Knows column) ∨
      ∃ before name after, columns = before ++ name :: after ∧
        (∀ column ∈ before, s.Knows column) ∧ ¬s.Knows name := by
  induction columns with
  | nil => exact .inl nofun
  | cons column columns ih =>
    by_cases hcolumn : s.Knows column
    · rcases ih with all | ⟨before, name, after, rfl, hbefore, hname⟩
      · exact .inl (List.forall_mem_cons.mpr ⟨hcolumn, all⟩)
      · exact .inr ⟨column :: before, name, after, rfl,
          List.forall_mem_cons.mpr ⟨hcolumn, hbefore⟩, hname⟩
    · exact .inr ⟨[], column, columns, rfl, nofun, hcolumn⟩

/-- The row of the column names shows itself. -/
theorem shownFields_names (h : ∀ column ∈ columns, s.Knows column) :
    s.shownFields columns s.names = s.shownNames columns := by
  refine List.flatMap_congr fun column hcolumn => ?_
  by_cases star : column = "*"
  · rw [if_pos star, if_pos star]
  · rw [if_neg star, if_neg star, Row.field?_eq]
    obtain ⟨i, hi⟩ := Option.isSome_iff_exists.mp
      (List.isSome_idxOf?.mpr ((h column hcolumn).resolve_left star))
    obtain ⟨hlt, hname, -⟩ := List.idxOf?_eq_some_iff.mp hi
    rw [hi, Option.bind_some, List.getElem?_eq_getElem hlt, hname]
    rfl

theorem length_shownFields (h : ∀ column ∈ columns, s.Knows column) (hrow : row.length = s.width) :
    (s.shownFields columns row).length = (s.shownNames columns).length := by
  obtain ⟨indices, -, shows⟩ := resolve_of_knows h
  rw [← shownFields_names h, ← shows row hrow, ← shows s.names s.length_names]
  simp [Row.project]

end Schema

namespace Contents

/-- What a projection shows of the rows that satisfy a condition, in the order of the table. -/
def shownRows (c : Contents) (columns : List String) (condition : Option Condition) : List Row :=
  (c.rows.filter fun row => c.Matches condition row).map (c.schema.shownFields columns)

/-- What a selection comes to. -/
inductive Selects (c : Contents) (columns : List String) (condition : Option Condition) :
    Option String → Except Fault Answer → Prop
  /-- The first name that stands for no column is refused, whatever the rows are. -/
  | unknownColumn {before : List String} {name : String} {after : List String}
      (order : Option String) :
      columns = before ++ name :: after → (∀ column ∈ before, c.schema.Knows column) →
      ¬c.schema.Knows name → Selects c columns condition order (.error (.columnNotFound name))
  | unordered :
      (∀ column ∈ columns, c.schema.Knows column) →
      Selects c columns condition none
        (.ok { columns := c.schema.shownNames columns, rows := c.shownRows columns condition })
  | nothingToOrder (column : String) :
      (∀ column ∈ columns, c.schema.Knows column) → c.shownRows columns condition = [] →
      Selects c columns condition (some column) (.error .nothingToOrder)
  /-- Rows are ordered by a column that is shown. -/
  | unknownOrder {column : String} :
      (∀ column ∈ columns, c.schema.Knows column) → c.shownRows columns condition ≠ [] →
      column ∉ c.schema.shownNames columns →
      Selects c columns condition (some column) (.error (.columnNotFound column))
  | ordered {column : String} {key : Row → String} {rows : List Row} :
      (∀ column ∈ columns, c.schema.Knows column) → c.shownRows columns condition ≠ [] →
      column ∈ c.schema.shownNames columns →
      (∀ row ∈ c.shownRows columns condition,
        row.field? (c.schema.shownNames columns) column = some (key row)) →
      StablySorted key (c.shownRows columns condition) rows →
      Selects c columns condition (some column)
        (.ok { columns := c.schema.shownNames columns, rows })

variable {c : Contents} {columns : List String} {condition : Option Condition}
  {order : Option String} {outcome : Except Fault Answer} {column : String}

theorem length_of_mem_shownRows (hrows : ∀ row ∈ c.rows, row.length = c.schema.width)
    (h : ∀ column ∈ columns, c.schema.Knows column) {row : Row}
    (hrow : row ∈ c.shownRows columns condition) :
    row.length = (c.schema.shownNames columns).length := by
  obtain ⟨whole, hwhole, rfl⟩ := List.mem_map.mp hrow
  exact Schema.length_shownFields h (hrows whole (List.mem_of_mem_filter hwhole))

/-- A selection of columns that are there shows rows, in the order of the table or put in order. -/
theorem select_of_knows (hrows : ∀ row ∈ c.rows, row.length = c.schema.width)
    (h : ∀ column ∈ columns, c.schema.Knows column) (order : Option String) :
    c.select columns condition order =
      (order.elim (Except.ok (c.shownRows columns condition))
        (orderRows (c.schema.shownNames columns) (c.shownRows columns condition))).map fun rows =>
          { columns := c.schema.shownNames columns, rows } := by
  obtain ⟨indices, hresolve, shows⟩ := Schema.resolve_of_knows h
  have header : Row.project c.schema.names indices = c.schema.shownNames columns := by
    rw [shows _ c.schema.length_names, Schema.shownFields_names h]
  have body : (c.rows.filter (c.selects condition)).map (fun row => Row.project row indices) =
      c.shownRows columns condition := by
    rw [selects_eq]
    refine List.map_congr_left fun row hrow => ?_
    exact shows row (hrows row (List.mem_of_mem_filter hrow))
  unfold select
  rw [hresolve, Outcome.ok_bind]
  simp only [header, body]
  cases order with
  | none => rfl
  | some column =>
    dsimp only [Option.elim_some]
    cases orderRows (c.schema.shownNames columns) (c.shownRows columns condition) column <;> rfl

theorem select_star (hrows : ∀ row ∈ c.rows, row.length = c.schema.width)
    (condition : Option Condition) : c.select ["*"] condition none =
      .ok { columns := c.schema.names, rows := c.rows.filter fun row => c.Matches condition row } := by
  have known : ∀ column ∈ ["*"], c.schema.Knows column := by simp [Schema.Knows]
  have names : c.schema.shownNames ["*"] = c.schema.names := by simp [Schema.shownNames]
  have fields : c.schema.shownFields ["*"] = id := by
    funext row
    simp [Schema.shownFields]
  rw [select_of_knows hrows known none, shownRows, names, fields, List.map_id]
  rfl

theorem orderRows_of_key {header : List String} {rows : List Row} {column : String}
    {key : Row → String} (hne : rows ≠ []) (hcolumn : column ∈ header)
    (hkey : ∀ row ∈ rows, row.field? header column = some (key row)) :
    ∃ sorted, orderRows header rows column = .ok sorted ∧ StablySorted key rows sorted := by
  obtain ⟨i, hi⟩ := Option.isSome_iff_exists.mp (List.isSome_idxOf?.mpr hcolumn)
  refine ⟨rows.mergeSort fun a b => decide (a.getD i "" ≤ b.getD i ""), ?_, ?_⟩
  · unfold orderRows
    rw [if_neg (by simpa using hne), hi]
  · refine (StablySorted.mergeSort (fun row : Row => row.getD i "") rows).congr fun row hrow => ?_
    have hfield := hkey row hrow
    rw [Row.field?_eq, hi, Option.bind_some] at hfield
    rw [List.getD_eq_getElem?_getD, hfield]
    rfl

/-- Every selection comes to something. -/
theorem exists_selects (hrows : ∀ row ∈ c.rows, row.length = c.schema.width)
    (columns : List String) (condition : Option Condition) (order : Option String) :
    ∃ outcome, c.Selects columns condition order outcome := by
  rcases c.schema.knows_cases columns with known | ⟨before, name, after, rfl, hbefore, hname⟩
  · cases order with
    | none => exact ⟨_, .unordered known⟩
    | some column =>
      by_cases hne : c.shownRows columns condition = []
      · exact ⟨_, .nothingToOrder column known hne⟩
      · by_cases hcolumn : column ∈ c.schema.shownNames columns
        · have hkey : ∀ row ∈ c.shownRows columns condition,
              row.field? (c.schema.shownNames columns) column =
                some ((row.field? (c.schema.shownNames columns) column).getD "") := by
            intro row hrow
            obtain ⟨field, hfield⟩ :=
              Row.exists_field? (length_of_mem_shownRows hrows known hrow) hcolumn
            rw [hfield, Option.getD_some]
          exact ⟨_, .ordered known hne hcolumn hkey (StablySorted.mergeSort _ _)⟩
        · exact ⟨_, .unknownOrder known hne hcolumn⟩
  · exact ⟨_, .unknownColumn order rfl hbefore hname⟩

theorem select_of_selects (hrows : ∀ row ∈ c.rows, row.length = c.schema.width)
    (h : c.Selects columns condition order outcome) :
    c.select columns condition order = outcome := by
  cases h with
  | unknownColumn order hcolumns hbefore hname =>
    unfold select
    rw [hcolumns, Schema.resolve_of_not_knows hbefore hname, Outcome.error_bind]
  | unordered known => exact select_of_knows hrows known none
  | nothingToOrder column known hnone =>
    rw [select_of_knows hrows known, hnone]
    rfl
  | @unknownOrder column known hne hcolumn =>
    have refused : orderRows (c.schema.shownNames columns) (c.shownRows columns condition)
        column = .error (.columnNotFound column) := by
      unfold orderRows
      rw [if_neg (by simpa using hne), List.idxOf?_eq_none_iff.mpr hcolumn]
    rw [select_of_knows hrows known, Option.elim_some, refused]
    rfl
  | ordered known hne hcolumn hkey hsorted =>
    obtain ⟨sorted, hok, harranged⟩ := orderRows_of_key hne hcolumn hkey
    rw [select_of_knows hrows known, Option.elim_some, hok, harranged.unique hsorted]
    rfl

end Contents

namespace Table

variable {t : Table} {root : Root} {c : Contents}

/-- A selection answers what its definition says, and nothing else. -/
theorem select_eq_iff_selects (h : t.contents root = .ok c) (columns : List String)
    (condition : Option Condition) (order : Option String) (outcome : Except Fault Answer) :
    t.select root columns condition order = outcome ↔
      c.Selects columns condition order outcome := by
  have hrows := length_of_contents h
  rw [select_of_contents h]
  constructor
  · rintro rfl
    obtain ⟨outcome, hselects⟩ := Contents.exists_selects hrows columns condition order
    rwa [Contents.select_of_selects hrows hselects]
  · exact Contents.select_of_selects hrows

/-- Texts in order, not numbers, and two rows with one key in the order of the table. -/
theorem select_eq_iff_selects_ties :
    let text := "k,v,k\nint64,string,string\n9,x,p\n10,y,q\n9,w,r\n-1,z,s\n"
    let root : Root := ⟨"db", .directory (Directory.empty.put "t.csv" (.file text.toUTF8))⟩
    let c : Contents :=
      ⟨⟨[⟨"k", .int64⟩, ⟨"v", .text⟩, ⟨"k", .text⟩], by decide⟩,
        [["9", "x", "p"], ["10", "y", "q"], ["9", "w", "r"], ["-1", "z", "s"]]⟩
    let answer : Answer :=
      { columns := ["v", "k", "v", "k", "k"]
        rows := [["y", "10", "y", "q", "10"], ["x", "9", "x", "p", "9"], ["w", "9", "w", "r", "9"]] }
    Table.contents ⟨"t"⟩ root = .ok c ∧
      Table.select ⟨"t"⟩ root ["v", "*", "k"] (some ⟨"k", .ge, "0"⟩) (some "k") = .ok answer ∧
      c.Selects ["v", "*", "k"] (some ⟨"k", .ge, "0"⟩) (some "k") (.ok answer) := by
  intro text root c answer
  have hread : Table.contents ⟨"t"⟩ root = .ok c :=
    Outcome.toOption_eq_some.mp (by decide +kernel)
  have shown : c.shownRows ["v", "*", "k"] (some ⟨"k", .ge, "0"⟩) =
      [["x", "9", "x", "p", "9"], ["y", "10", "y", "q", "10"], ["w", "9", "w", "r", "9"]] := by
    decide +kernel
  have sorted : StablySorted (fun row : Row => row.getD 1 "")
      [["x", "9", "x", "p", "9"], ["y", "10", "y", "q", "10"], ["w", "9", "w", "r", "9"]]
      answer.rows := by
    refine ⟨by decide, by decide, fun text => ?_⟩
    by_cases nine : text = "9"
    · rw [nine]
      decide
    · have apart : "9" ≠ text := Ne.symm nine
      simp only [answer, List.filter_cons, List.filter_nil, List.getD_cons_succ, List.getD_cons_zero,
        apart, decide_false, Bool.false_eq_true, if_false]
  have hselects : c.Selects ["v", "*", "k"] (some ⟨"k", .ge, "0"⟩) (some "k") (.ok answer) := by
    rw [← shown] at sorted
    refine .ordered ?_ ?_ ?_ ?_ sorted
    · decide
    · simp [shown]
    · decide
    · rw [shown]
      decide
  exact ⟨hread, (select_eq_iff_selects hread _ _ _ _).mpr hselects, hselects⟩

end Table

end TableStore
