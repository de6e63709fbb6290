import Mathlib.Data.List.Dedup
import TableStore.Proofs.Database.WellFormed
import TableStore.Proofs.KeyValue.Map

/-! Runs in which nothing but the store changes the table of the entries: the table has one
row for every key under which a value was stored. -/
namespace TableStore

open TableStore.Text TableStore.Sql TableStore.Entries

/-- A command about another table leaves the file of this one as it is. -/
theorem Command.holds?_run_of_ne {root : Root} {c : Command} {table : String}
    (h : c.table ≠ table) : (c.run root).2.path = root.path ∧
      (c.run root).2.holds? (tableFile table) = root.holds? (tableFile table) := by
  have same : Root.AgreeOn (· = tableFile table) (c.run root).2 root :=
    agreeOn_run_self root fun heq => h (tableFile_injective heq)
  exact ⟨same.path, same.entries _ rfl⟩

/-- A request that gives no statement about a table. -/
def Request.Spares (table : String) : Request → Prop
  | .call asked => asked.Gives fun c => c.table ≠ table
  | _ => True

namespace Database

/-- The key under which a request stores a value, if it does. -/
def storedKey? (db : Database) : Request → Option String
  | .set key value lifetime =>
    match Entries.store.set db key value lifetime with
    | some (.ok (), _) => some key
    | _ => none
  | _ => none

/-- The keys under which a run stores values, in order. -/
def storedKeys (db : Database) : List Request → List String
  | [] => []
  | request :: requests =>
    (db.storedKey? request).toList ++ (db.grant request).storedKeys requests

end Database

namespace Entries

variable {root made : Root} {keys : List String} {c new : Contents} {key value : String}
  {found : Option String} {db after : Database}

def keyFields (c : Contents) : List String :=
  c.rows.map (·.headD "")

/-- The table has one row for each of these keys, or there are none and no table. -/
def OneRowEach (keys : List String) (root : Root) : Prop :=
  root.file? (tableFile tableName) = none ∧ keys = [] ∨ ∃ c, root.Reads tableName c ∧
    c.schema.names = ["key", "value"] ∧
    (keyFields c).Perm (keys.dedup.map Hex.encodeText)

theorem kept_oneRowEach (keys : List String) :
    Root.Kept (OneRowEach keys) fun c => c.table ≠ tableName := by
  have congr {r s : Root} (h : OneRowEach keys r) (hpath : s.path = r.path)
      (hholds : s.holds? (tableFile tableName) = r.holds? (tableFile tableName)) :
      OneRowEach keys s := by
    rcases h with ⟨absent, hkeys⟩ | ⟨c, hreads, hc⟩
    · exact .inl ⟨(Root.file?_congr hpath hholds).trans absent, hkeys⟩
    · exact .inr ⟨c, (Root.onTable_congr hpath hholds _).trans hreads, hc⟩
  refine ⟨fun h same => congr h same.path (same.entries _), fun h hc => ?_⟩
  obtain ⟨hpath, hholds⟩ := Command.holds?_run_of_ne hc
  exact congr h hpath hholds

theorem OneRowEach.prepared (h : OneRowEach keys root) (prepared : Prepared root made) :
    OneRowEach keys made := by
  rcases prepared with same | created
  · exact (kept_oneRowEach keys).congr h same
  · obtain ⟨absent, c, hreads, names, hrows⟩ := created_of_follows created
    rcases h with ⟨-, rfl⟩ | ⟨d, hd, -⟩
    · exact .inr ⟨c, hreads, names, by simp [keyFields, hrows]⟩
    · exact absurd absent hd.file?_ne_none

section Fields

variable (names : c.schema.names = ["key", "value"])
  (width : ∀ row ∈ c.rows, row.length = c.schema.width)
include names width

theorem holds_iff_headD {row : Row} (hrow : row ∈ c.rows) :
    (underKey key).holds c.schema.names row = true ↔ row.headD "" = key := by
  have first : c.schema.names.idxOf? "key" = some 0 := by
    rw [names]
    rfl
  have two : row.length = 2 := by
    rw [width row hrow, ← Schema.length_names, names]
    rfl
  obtain ⟨field, other, rfl⟩ := List.length_eq_two.mp two
  rw [holds_iff first]
  simp

theorem mem_keyFields (hfound : c.valueUnder key = .ok found) :
    key ∈ keyFields c ↔ found ≠ none := by
  unfold Contents.valueUnder at hfound
  obtain ⟨i, -, hfound⟩ := Outcome.bind_eq_ok.mp hfound
  cases hfound
  rw [ne_eq, Option.map_eq_none_iff, List.find?_eq_none, keyFields, List.mem_map]
  push Not
  refine exists_congr fun row => and_congr_right fun hrow => ?_
  rw [holds_iff_headD names width hrow]

omit width in
/-- An update changes no key, an insertion adds one at the end. -/
theorem keyFields_of_changes (changes : Changes c key value found new) :
    new.schema = c.schema ∧
      keyFields new = keyFields c ++ if found = none then [key] else [] := by
  cases found with
  | none =>
    obtain ⟨row, ⟨⟨j, hj, hkey⟩, -⟩, rfl⟩ := changes
    have first : j = 0 := by
      rw [names] at hj
      cases hj
      rfl
    subst first
    refine ⟨rfl, ?_⟩
    cases row with
    | nil => cases hkey
    | cons field row =>
      cases hkey
      simp [keyFields]
  | some old =>
    obtain ⟨count, hupdate⟩ := changes
    obtain ⟨i, hi, rfl⟩ := update_eq_ok hupdate
    have second : i = 1 := by
      have := Schema.index_eq_ok.mp hi
      rw [names] at this
      cases this
      rfl
    subst second
    refine ⟨rfl, ?_⟩
    simp only [keyFields, List.map_map, reduceCtorEq, if_false, List.append_nil]
    apply List.map_congr_left
    intro row _
    unfold Function.comp restored
    split
    · cases row <;> rfl
    · rfl

end Fields

theorem OneRowEach.stored {key : String} {value : Json} (h : OneRowEach keys db.root)
    (hset : set? db key value = some (.ok (), after)) : OneRowEach (keys ++ [key]) after.root := by
  obtain ⟨made, found, c, new, prepared, hc, hnew, hfound, changes⟩ := stored_of_set hset
  rcases h.prepared prepared with ⟨absent, -⟩ | ⟨d, hd, names, perm⟩
  · exact absurd absent hc.file?_ne_none
  · obtain rfl := hd.unique hc
    obtain ⟨schema, fields⟩ := keyFields_of_changes names changes
    refine .inr ⟨new, hnew, schema ▸ names, ?_⟩
    have known : found ≠ none ↔ key ∈ keys := by
      rw [← mem_keyFields names hc.length hfound, perm.mem_iff,
        List.mem_map_of_injective Hex.encodeText_injective, List.mem_dedup]
    have last : (keys ++ [key]).dedup.Perm (key :: keys).dedup :=
      (List.perm_append_singleton key keys).dedup
    refine List.Perm.trans ?_ (last.map Hex.encodeText).symm
    rw [fields]
    by_cases hnone : found = none
    · have fresh : key ∉ keys := fun hkey => known.mpr hkey hnone
      rw [if_pos hnone, List.dedup_cons_of_notMem fresh, List.map_cons]
      exact (List.perm_append_singleton _ _).trans (perm.cons _)
    · rw [if_neg hnone, List.append_nil, List.dedup_cons_of_mem (known.mp hnone)]
      exact perm

theorem OneRowEach.refused {key : String} {value : Json} {fault : Fault}
    (h : OneRowEach keys db.root) (hset : set? db key value = some (.error fault, after)) :
    OneRowEach keys after.root := by
  obtain ⟨-, -, made, prepared, ⟨-, same⟩ | ⟨hok, -⟩⟩ := set?_cases hset
  · exact (kept_oneRowEach keys).congr (h.prepared prepared) same
  · cases hok

end Entries

namespace Database

variable {db : Database} {keys : List String}

/-- What holds before a request, and after it of the keys that have a row then. -/
theorem keeps_grant {request : Request}
    (h : db.Keeps (OneRowEach keys) fun c => c.table ≠ tableName)
    (spares : request.Spares tableName) :
    (db.grant request).Keeps (OneRowEach (keys ++ (db.storedKey? request).toList))
      fun c => c.table ≠ tableName := by
  cases request with
  | call asked =>
    simp only [storedKey?, Option.toList_none, List.append_nil]
    exact h.serve (kept_oneRowEach keys) asked spares
  | get key =>
    simp only [storedKey?, Option.toList_none, List.append_nil]
    exact h
  | reopen =>
    simp only [storedKey?, Option.toList_none, List.append_nil, Database.grant]
    split
    · next ho => exact Keeps.openAt (kept_oneRowEach keys) h.root ho
    · exact h
  | set key value lifetime =>
    simp only [storedKey?, Database.grant]
    have hstore : Entries.store.set db key value lifetime = Entries.set? db key value := rfl
    rw [hstore]
    cases hset : Entries.set? db key value with
    | none => simpa using h
    | some p =>
      obtain ⟨outcome, after⟩ := p
      have freed := (set?_cases hset).2.1
      cases outcome with
      | ok done => exact keeps_of_free (h.root.stored hset) freed
      | error fault =>
        simp only [Option.toList_none, List.append_nil]
        exact keeps_of_free (h.root.refused hset) freed

theorem keeps_grantAll {requests : List Request}
    (h : db.Keeps (OneRowEach keys) fun c => c.table ≠ tableName)
    (spares : ∀ request ∈ requests, request.Spares tableName) :
    (db.grantAll requests).Keeps (OneRowEach (keys ++ db.storedKeys requests))
      fun c => c.table ≠ tableName := by
  induction requests generalizing db keys with
  | nil =>
    rw [storedKeys, List.append_nil]
    exact h
  | cons request requests ih =>
    rw [List.forall_mem_cons] at spares
    have := ih (keeps_grant h spares.1) spares.2
    rwa [List.append_assoc] at this

end Database

namespace Entries

variable {root : Root} {c : Contents}

theorem hasTable_eq_false : root.hasTable tableName = false ↔
    root.file? (tableFile tableName) = none := by
  have named : isTableName tableName = true := by decide
  unfold Root.hasTable
  rw [named, Bool.true_and, Root.isFile_eq]
  cases root.file? (tableFile tableName) <;> simp

/-- A database whose table can be read can be opened again, and holds the same. -/
theorem openAt_of_reads (h : root.Reads tableName c) :
    ∃ reopened, Database.openAt root = .ok reopened ∧ reopened.root.SameEntries root := by
  obtain ⟨-, bytes, hfile, -⟩ := Root.reads_iff.mp h
  have place : root.place ≠ .plainFile := by
    rw [(Root.writable_of_file? hfile).place]
    nofun
  refine ⟨⟨root.made, {}⟩, ?_, Root.sameEntries_made place⟩
  unfold Database.openAt
  rw [Root.ensure_eq_made place]

/-- The store is a map. What is stored under a key is there afterwards, and under every other
key there is what was there before, also after the database was opened again. As long as no
other statement is about the table, it has one row for every key that was ever stored. -/
theorem store_isMap :
    (∀ (db after : Database) (key : String) (value : Json), Json.Exact Json.maxDepth value →
      set? db key value = some (.ok (), after) →
      (get after key = .ok (some value) ∧ ∀ other, other ≠ key → get after other = get db other) ∧
      ∃ reopened, Database.openAt after.root = .ok reopened ∧
        get reopened key = .ok (some value) ∧
        ∀ other, other ≠ key → get reopened other = get db other) ∧
    ∀ (root : Root) (requests : List Request), root.hasTable tableName = false →
      (∀ request ∈ requests, request.Spares tableName) →
      let start : Database := ⟨root, {}⟩
      let now := (start.grantAll requests).root
      (now.hasTable tableName = false ∧ start.storedKeys requests = []) ∨
      ∃ c, Table.contents ⟨tableName⟩ now = .ok c ∧ c.schema.names = ["key", "value"] ∧
        (keyFields c).Perm ((start.storedKeys requests).dedup.map Hex.encodeText) := by
  constructor
  · intro db after key value exact stored
    obtain ⟨-, -, -, new, -, -, reads, -, -⟩ := stored_of_set stored
    obtain ⟨reopened, hopen, same⟩ := openAt_of_reads reads
    exact ⟨get_of_set exact stored (Root.SameEntries.refl _), reopened, hopen,
      get_of_set exact stored same⟩
  · intro root requests absent spares start now
    have first : start.Keeps (OneRowEach []) fun c => c.table ≠ tableName :=
      Database.keeps_of_free (.inl ⟨hasTable_eq_false.mp absent, rfl⟩) rfl
    rcases (Database.keeps_grantAll first spares).root with ⟨absent, keys⟩ | ⟨c, reads, h⟩
    · exact .inl ⟨hasTable_eq_false.mpr absent, keys⟩
    · exact .inr ⟨c, reads.contents, h⟩

/-- Two values under the empty key, in a root that is absent at first. -/
theorem store_isMap_twice :
    let root : Root := ⟨"db", .nothing⟩
    let value : Json := .array [.ofInt (-1), .string "a\""]
    let requests : List Request := [.set "" value 0, .set "" .null 0]
    (∃ after, set? ⟨root, {}⟩ "" value = some (.ok (), after) ∧
      get after "" = .ok (some value) ∧ get after "k" = get ⟨root, {}⟩ "k") ∧
    ∃ c, Table.contents ⟨tableName⟩ ((⟨root, {}⟩ : Database).grantAll requests).root = .ok c ∧
      (keyFields c).Perm [""] := by
  intro root value requests
  have number : Json.Exact 126 (.ofInt (-1)) := .integer (by decide) (by decide)
  have exact : Json.Exact Json.maxDepth value := .array (by simp [number, Json.Exact.string])
  have served : (set? ⟨root, {}⟩ "" value).map (fun p => p.1.toOption) = some (some ()) := by
    decide +kernel
  obtain ⟨⟨outcome, after⟩, hset, hok⟩ := Option.map_eq_some_iff.mp served
  obtain rfl := Outcome.toOption_eq_some.mp hok
  have spares : ∀ request ∈ requests, request.Spares tableName := by
    simp [requests, Request.Spares]
  have keys : (⟨root, {}⟩ : Database).storedKeys requests = ["", ""] := by
    decide +kernel
  obtain ⟨law, rows⟩ := store_isMap
  obtain ⟨⟨hself, hother⟩, -⟩ := law _ _ _ _ exact hset
  refine ⟨⟨after, hset, hself, hother "k" (by decide)⟩, ?_⟩
  rcases rows root requests (by decide) spares with ⟨-, none⟩ | ⟨c, hc, -, perm⟩
  · rw [keys] at none
    cases none
  · rw [keys] at perm
    exact ⟨c, hc, perm⟩

end Entries

end TableStore
