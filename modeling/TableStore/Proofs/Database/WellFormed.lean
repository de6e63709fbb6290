import TableStore.Proofs.Command.WellFormed
import TableStore.Proofs.Database.Invariant
import TableStore.Proofs.KeyValue.Storing

/-! A database that starts with an empty root never holds anything but tables that can
be read and are typed, whatever is asked of it. -/
namespace TableStore

open TableStore.Text TableStore.Sql

theorem Root.kept_wellFormed : Root.Kept Root.WellFormed Command.Declares :=
  ⟨Root.WellFormed.congr, Command.run_wellFormed⟩

/-- The root is well-formed, and what is queued keeps it so. -/
abbrev Database.Sound (db : Database) : Prop :=
  db.Keeps Root.WellFormed Command.Declares

theorem Entries.sound_set {db after : Database} {outcome : Except Fault Unit} {key : String}
    {value : Json} (h : db.Sound) (hs : Entries.set? db key value = some (outcome, after)) :
    after.Sound := by
  obtain ⟨-, freed, made, prepared, stored⟩ := set?_cases hs
  have sound_made : made.WellFormed := by
    rcases prepared with same | created
    · exact h.root.congr same
    · obtain ⟨answer, hrun⟩ := created.run
      refine Root.kept_wellFormed.of_run h.root ?_ hrun
      rintro table columns types ⟨⟩
      nofun
  refine Database.keeps_of_free ?_ freed
  rcases stored with ⟨-, same⟩ | ⟨-, found, -, follows⟩
  · exact sound_made.congr same
  · obtain ⟨answer, hrun⟩ := follows.run
    refine Root.kept_wellFormed.of_run sound_made ?_ hrun
    cases found <;> exact Command.declares_of_not_create nofun

/-- What can be asked of a database, and of the key-value store over it. -/
inductive Request where
  | call (call : Call)
  | set (key : String) (value : Json) (lifetime : Nat)
  | get (key : String)
  | reopen

namespace Database

variable {db : Database}

/-- The database after a request. A request that has to wait changes nothing. -/
def grant (db : Database) : Request → Database
  | .call call => (db.serve call).2
  | .set key value lifetime =>
    match Entries.store.set db key value lifetime with
    | some (_, db) => db
    | none => db
  | .get key => (Entries.store.get db key).2
  | .reopen =>
    match openAt db.root with
    | .ok db => db
    | .error _ => db

theorem Sound.grant (h : db.Sound) (request : Request) : (db.grant request).Sound := by
  cases request with
  | call call => exact h.serve Root.kept_wellFormed call fun _ _ _ hc => Command.declares_of_read hc
  | get key => exact h
  | set key value lifetime =>
    simp only [Database.grant]
    split
    · next hs => exact Entries.sound_set h hs
    · exact h
  | reopen =>
    simp only [Database.grant]
    split
    · next ho => exact Database.Keeps.openAt Root.kept_wellFormed h.root ho
    · exact h

def grantAll (db : Database) (requests : List Request) : Database :=
  requests.foldl grant db

theorem Sound.grantAll (h : db.Sound) (requests : List Request) : (db.grantAll requests).Sound := by
  induction requests generalizing db with
  | nil => exact h
  | cons request requests ih => exact ih (h.grant request)

/-- Whatever is asked of a database that starts with an empty root, at any point every
entry of the root is the file of a table, written out from contents in which every row
has one value of its type for each column, and read back as these. -/
theorem grantAll_wellFormed (root : Root) (requests : List Request)
    (empty : ∀ file, root.holds? file = none) :
    let now := ((⟨root, {}⟩ : Database).grantAll requests).root
    ∀ file entry, now.holds? file = some entry → ∃ (name : String) (c : Contents),
      isTableName name = true ∧ file = tableFile name ∧ entry = .file c.encode ∧
      Table.contents ⟨name⟩ now = .ok c ∧ c.schema.columns ≠ [] ∧
      (∀ column ∈ c.schema.names, isStorable column = true) ∧
      ∀ row ∈ c.rows, row.length = c.schema.width ∧ (∀ value ∈ row, isStorable value = true) ∧
        ∀ (i : Nat) (name value : String), c.schema.columns[i]? = some ⟨name, .int64⟩ →
          row[i]? = some value → isInt64 value = true := by
  intro now file entry he
  have sound : Sound ⟨root, {}⟩ := ⟨Root.wellFormed_of_holds?_eq_none empty, nofun⟩
  obtain ⟨name, c, named, hfile, bytes, typed, read⟩ :=
    (sound.grantAll requests).root file entry he
  refine ⟨name, c, named, hfile, bytes, read, typed.columns, ?_, ?_⟩
  · exact fun column hc => Schema.isStorable_of_mem_names hc
  · intro row hrow
    have holds := typed.rows row hrow
    refine ⟨holds.length, holds.storable, fun i name value hc hv => ?_⟩
    exact ((Schema.holds_iff.mp holds).2 i _ value hc hv).typed

/-- The first value stored in an absent root makes the table of the entries. -/
theorem grantAll_wellFormed_entries :
    let root : Root := ⟨"db", .nothing⟩
    let now := ((⟨root, {}⟩ : Database).grantAll [.set "k" .null 0, .reopen]).root
    (∀ file, root.holds? file = none) ∧
      now.holds? "entries.csv" = some (.file "key,value\nstring,string\n6b,6e756c6c\n".toUTF8) ∧
      ∃ name c, "entries.csv" = tableFile name ∧ Table.contents ⟨name⟩ now = .ok c := by
  intro root now
  have empty : ∀ file, root.holds? file = none := fun file => rfl
  have held : now.holds? "entries.csv" =
      some (.file "key,value\nstring,string\n6b,6e756c6c\n".toUTF8) := by
    decide +kernel
  obtain ⟨name, c, -, hfile, -, read, -⟩ :=
    grantAll_wellFormed root [.set "k" .null 0, .reopen] empty _ _ held
  exact ⟨empty, held, name, c, hfile, read⟩

end Database

end TableStore
