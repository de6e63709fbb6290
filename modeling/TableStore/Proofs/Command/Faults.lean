import TableStore.Proofs.Command.Run

/-! The faults in which a command can end: those of its table, of its values and of the
disk. Transactions have faults of their own, which no command reports. -/
namespace TableStore

open TableStore.Text TableStore.Sql TableStore.Outcome

def Fault.ofCommand : Fault → Bool
  | .tableNotFound _ | .tableExists _ | .columnNotFound _ | .badTableName _ | .typeCount .. => true
  | .unknownType _ | .typeMismatch .. | .valueCount .. | .separatorInValue .. => true
  | .nothingToOrder | .damagedTable _ | .disk _ => true
  | _ => false

theorem Fault.ofCommand_of_ofDeclaration {fault : Fault} (h : fault.ofDeclaration = true) :
    fault.ofCommand = true := by
  cases fault with
  | typeCount | unknownType | separatorInValue => rfl
  | _ => cases h

abbrev CommandFault (x : Except Fault α) : Prop :=
  FailsIn (fun fault => fault.ofCommand = true) x

namespace Schema

theorem declare_fault (names typeNames : List String) :
    CommandFault (declare names typeNames) :=
  fun fault h => Fault.ofCommand_of_ofDeclaration (declare_refused names typeNames fault h)

theorem index_fault (s : Schema) (name : String) : CommandFault (s.index name) := by
  unfold index
  cases s.index? name with
  | none => exact .error rfl
  | some i => exact .ok i

theorem columnCheck_fault (c : Column) (value : String) : CommandFault (c.check value) :=
  .bind (.ite (.ok _) (.error rfl)) fun _ => .ite (.ok _) (.error rfl)

theorem newRows_fault (s : Schema) (columns : List String) (groups : List (List String)) :
    CommandFault (s.newRows columns groups) := by
  refine .bind (.mapM s.index_fault) fun indices => .mapM fun values => ?_
  refine .ite (.bind ?_ fun _ => .ok _) (.error rfl)
  exact .ite (.forM fun p => columnCheck_fault p.1 p.2) (.error rfl)

theorem resolve_fault (s : Schema) (columns : List String) : CommandFault (s.resolve columns) :=
  .bind (.mapM fun name => .ite (.ok _) (.map (s.index_fault name))) fun _ => .ok _

theorem resolveAssignments_fault (s : Schema) (assignments : List (String × String)) :
    CommandFault (s.resolveAssignments assignments) := by
  refine .mapM fun p => .bind (s.index_fault p.1) fun i => .bind ?_ fun _ => .ok _
  unfold checkAt
  split
  · exact columnCheck_fault _ _
  · exact .ok _

end Schema

namespace Contents

theorem decodeText_fault (bytes : ByteArray) : CommandFault (decodeText bytes) := by
  unfold decodeText
  split
  · exact .ok _
  · exact .error rfl

theorem decodeRows_fault (path : String) (width number : Nat) (lines : List (List Char)) :
    CommandFault (decodeRows path width number lines) := by
  induction lines generalizing number with
  | nil => exact .ok []
  | cons line lines ih => exact .ite (.map (ih (number + 1))) (.error rfl)

theorem decode_fault (path : String) (bytes : ByteArray) : CommandFault (decode path bytes) := by
  refine .bind (decodeText_fault bytes) fun text => ?_
  split
  · refine .bind (Schema.declare_fault _ _) fun schema => ?_
    exact .bind (decodeRows_fault _ _ _ _) fun rows => .ok _
  · exact .error rfl

theorem decodeSchema_fault (path : String) (bytes : ByteArray) :
    CommandFault (decodeSchema path bytes) := by
  unfold decodeSchema
  split
  · refine .bind (decodeText_fault _) fun header => .bind (decodeText_fault _) fun types => ?_
    exact Schema.declare_fault _ _
  · exact .bind (decodeText_fault _) fun _ => .error rfl
  · exact .error rfl

theorem check_fault (c : Contents) : CommandFault c.check :=
  .forM fun _ => .ite (.forM fun _ => .ite (.ok _) (.error rfl)) (.error rfl)

theorem select_fault (c : Contents) (columns : List String) (condition : Option Condition)
    (order : Option String) : CommandFault (c.select columns condition order) := by
  refine .bind (c.schema.resolve_fault columns) fun indices => ?_
  cases order with
  | none => exact .ok _
  | some column =>
    refine .bind (.ite (.error rfl) ?_) fun rows => .ok _
    split
    · exact .error rfl
    · exact .ok _

end Contents

namespace Command

theorem revise_fault (path : String) (bytes : ByteArray) (c : Command) :
    CommandFault (c.revise path bytes) := by
  have read := Contents.decode_fault path bytes
  cases c with
  | create table columns types =>
    exact .bind (Schema.declare_fault columns types) fun _ => .error rfl
  | insert table columns groups =>
    refine .bind (Contents.decodeSchema_fault path bytes) fun s => ?_
    refine .bind (s.newRows_fault columns groups) fun rows => .bind read fun c => ?_
    exact .bind (Contents.check_fault _) fun _ => .ok _
  | select table columns condition order =>
    exact .bind read fun c => .bind (c.select_fault columns condition order) fun _ => .ok _
  | update table assignments condition =>
    refine .bind read fun c => .bind ?_ fun p => .bind p.2.check_fault fun _ => .ok _
    exact .bind (c.schema.resolveAssignments_fault assignments) fun _ => .ok _
  | delete table condition =>
    exact .bind read fun c => .bind (Contents.check_fault _) fun _ => .ok _

theorem tablePath_fault (root : Root) (table : String) : CommandFault (root.tablePath table) :=
  .ite (.ok _) (.error rfl)

theorem onTable_fault (root : Root) (c : Command) :
    CommandFault (root.onTable c.table fun path bytes => c.revise path bytes) := by
  refine .bind (tablePath_fault root c.table) fun path => ?_
  split
  · exact .error rfl
  · exact revise_fault path _ c

theorem effect_fault (root : Root) (c : Command) : CommandFault (c.effect root) := by
  cases c with
  | create table columns types =>
    refine .bind (Schema.declare_fault columns types) fun s => .bind ?_ fun _ => .ok _
    refine .bind (tablePath_fault root table) fun _ => ?_
    split
    · exact .error rfl
    · exact .ite (.error rfl) (.ite (.ok _) (.error rfl))
  | insert => exact onTable_fault root _
  | select => exact onTable_fault root _
  | update => exact onTable_fault root _
  | delete => exact onTable_fault root _

theorem run_fault (root : Root) (c : Command) : CommandFault (c.run root).1 := by
  cases he : c.effect root with
  | ok p =>
    rw [run_of_effect_ok he]
    exact .ok _
  | error fault =>
    have hf := effect_fault root c fault he
    rcases run_of_effect_error he with hr | ⟨-, hr⟩ <;> rw [hr] <;> exact .error hf

end Command

end TableStore
