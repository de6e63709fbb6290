import TableStore.Proofs.Database.Calls
import TableStore.Proofs.Root.Listing
import TableStore.Proofs.Transaction.Commit

/-! Calls that only read. They look at no transaction, and at the root only for what it
holds under each name. -/
namespace TableStore

open TableStore.Text TableStore.Sql

theorem Table.find_bind_schema (root : Root) (name : String) :
    (Table.find root name).bind (fun t => t.schema root) =
      root.onTable name Contents.decodeSchema := by
  rcases Table.find_cases root name with ⟨fault, hfind, hon⟩ | ⟨bytes, hb, hfind, hon⟩
  · rw [hfind, hon]
    rfl
  · rw [hfind, hon]
    exact Table.schema_eq (t := ⟨name⟩) hb

namespace Database

variable {db other : Database}

/-- Calls that read answer the same on roots with the same entries, whatever is queued. -/
theorem serve_congr (h : db.root.SameEntries other.root) {call : Call}
    (hc : call.isReading = true) : (db.serve call).1 = (other.serve call).1 := by
  have ask (text : String) : db.query text = other.query text := by
    unfold query Database.ask
    congr 1
    funext c
    rw [(Command.run_congr h).1]
  cases call with
  | query text =>
    simp only [serve, ask]
  | queryRow text =>
    simp only [serve, queryRow, ask]
  | schema table =>
    have described : db.schema table = other.schema table := by
      show (Table.find db.root table).bind _ = (Table.find other.root table).bind _
      rw [Table.find_bind_schema, Table.find_bind_schema]
      exact Root.onTable_congr h.path (h.entries _) _
    simp only [serve, described]
  | hasTable table =>
    simp only [serve, hasTable, Root.hasTable, Root.isFile_eq,
      Root.file?_congr h.path (h.entries _)]
  | tables =>
    simp only [serve, tables, Root.tables_congr h]
  | _ => cases hc

end Database

end TableStore
