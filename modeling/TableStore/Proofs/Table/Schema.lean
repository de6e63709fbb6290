import TableStore.Schema
import TableStore.Proofs.Outcome
import TableStore.Proofs.Text.Fields

/-! Schemas and their two lines. A declaration is accepted exactly if it spells the
names and the types of a schema, and so is a pair of lines. -/
namespace TableStore

open TableStore.Text

def Fault.ofDeclaration : Fault → Bool
  | .typeCount .. | .unknownType _ | .separatorInValue .. => true
  | _ => false

theorem isStorable_iff {value : String} : isStorable value = true ↔
    ',' ∉ value.toList ∧ '\n' ∉ value.toList ∧ '\r' ∉ value.toList := by
  unfold isStorable fieldSeparator
  simp only [List.all_eq_true, Bool.and_eq_true, bne_iff_ne]
  constructor
  · intro h
    exact ⟨fun hm => (h _ hm).1.1 rfl, fun hm => (h _ hm).1.2 rfl, fun hm => (h _ hm).2 rfl⟩
  · rintro ⟨hc, hn, hr⟩ c hm
    exact ⟨⟨fun e => hc (e ▸ hm), fun e => hn (e ▸ hm)⟩, fun e => hr (e ▸ hm)⟩

theorem lineFields_fieldLine {fields : List String} (hne : fields ≠ [])
    (h : ∀ f ∈ fields, ',' ∉ f.toList) : lineFields (fieldLine fields) = fields := by
  unfold lineFields fieldLine
  rw [splitAt_joinWith (by simpa using hne), List.map_map]
  · simp [Function.comp_def]
  · intro piece hp
    obtain ⟨f, hf, rfl⟩ := List.mem_map.mp hp
    exact h f hf

@[simp] theorem fieldLine_lineFields (line : List Char) : fieldLine (lineFields line) = line := by
  unfold fieldLine lineFields
  rw [List.map_map]
  have : String.toList ∘ String.ofList = id := by
    funext cs
    exact String.toList_ofList
  rw [this, List.map_id, joinWith_splitAt]

theorem lineFields_ne_nil (line : List Char) : lineFields line ≠ [] := by
  simpa [lineFields] using splitAt_ne_nil fieldSeparator line

theorem mem_of_mem_lineFields {line : List Char} {field : String} {c : Char}
    (h : field ∈ lineFields line) (hc : c ∈ field.toList) : c ∈ line ∧ c ≠ ',' := by
  obtain ⟨piece, hp, rfl⟩ := List.mem_map.mp h
  rw [String.toList_ofList] at hc
  exact mem_of_mem_splitAt hp hc

theorem mem_fieldLine {fields : List String} {f : String} {c : Char} (hf : f ∈ fields)
    (hc : c ∈ f.toList) : c ∈ fieldLine fields :=
  mem_joinWith_of_mem (List.mem_map_of_mem hf) hc

theorem not_mem_fieldLine {fields : List String} {c : Char} (hc : c ≠ ',')
    (h : ∀ f ∈ fields, c ∉ f.toList) : c ∉ fieldLine fields := by
  intro hm
  rcases mem_joinWith hm with e | ⟨piece, hp, hm⟩
  · exact hc e
  · obtain ⟨f, hf, rfl⟩ := List.mem_map.mp hp
    exact h f hf hm

namespace ColumnType

theorem ofName_eq_ok {name : String} {t : ColumnType} :
    ofName name = .ok t ↔ name = t.name := by
  constructor
  · intro h
    unfold ofName at h
    split at h
    · next hn =>
      cases h
      exact hn
    · split at h
      · next hn =>
        cases h
        exact hn
      · cases h
  · rintro rfl
    exact ofName_name t

theorem mapM_ofName_eq_ok {names : List String} {types : List ColumnType} :
    names.mapM ofName = .ok types ↔ names = types.map name := by
  simp only [Outcome.mapM_eq_ok, ofName_eq_ok]
  rw [← List.forall₂_eq_eq_eq, List.forall₂_map_right_iff]

theorem isStorable_name (t : ColumnType) : isStorable t.name = true := by
  cases t <;> decide

end ColumnType

namespace Schema

variable {s : Schema}

theorem isStorable_of_mem_names {n : String} (h : n ∈ s.names) : isStorable n = true := by
  obtain ⟨c, hc, rfl⟩ := List.mem_map.mp h
  have named := s.named c hc
  rw [isColumnName, Bool.and_eq_true] at named
  exact named.2

theorem names_eq_nil_iff : s.names = [] ↔ s.columns = [] := by
  simp [names]

theorem ofColumns_eq_ok {columns : List Column} :
    ofColumns columns = .ok s ↔ columns = s.columns := by
  unfold ofColumns
  split
  · next c hc =>
    refine ⟨nofun, ?_⟩
    rintro rfl
    have named := s.named c (List.mem_of_find?_eq_some hc)
    have unnamed := List.find?_some hc
    simp [named] at unnamed
  · constructor
    · intro h
      cases h
      rfl
    · rintro rfl
      rfl

theorem zipWith_names_types (s : Schema) : List.zipWith Column.mk s.names s.types = s.columns := by
  simp [names, types, List.zipWith_map]

theorem ofTypes_eq_ok {names : List String} {types : List ColumnType} :
    ofTypes names types = .ok s ↔ names = s.names ∧ types = s.types := by
  unfold ofTypes
  constructor
  · intro h
    split at h
    · next hlen =>
      have hc := ofColumns_eq_ok.mp h
      constructor
      · have first : (names.zip types).map Prod.fst = names := List.map_fst_zip (Nat.le_of_eq hlen)
        rw [List.zip, List.map_zipWith] at first
        rw [Schema.names, ← hc, List.map_zipWith, first]
      · have second : (names.zip types).map Prod.snd = types :=
          List.map_snd_zip (Nat.le_of_eq hlen.symm)
        rw [List.zip, List.map_zipWith] at second
        rw [Schema.types, ← hc, List.map_zipWith, second]
    · cases h
  · rintro ⟨rfl, rfl⟩
    rw [if_pos (by simp), ofColumns_eq_ok, zipWith_names_types]

theorem declare_eq_ok {names typeNames : List String} :
    declare names typeNames = .ok s ↔
      names = s.names ∧ typeNames = s.types.map ColumnType.name := by
  unfold declare
  constructor
  · intro h
    split at h
    · cases h
    · obtain ⟨types, htypes, h⟩ := Outcome.bind_eq_ok.mp h
      obtain ⟨rfl, rfl⟩ := ofTypes_eq_ok.mp h
      exact ⟨rfl, ColumnType.mapM_ofName_eq_ok.mp htypes⟩
  · rintro ⟨rfl, rfl⟩
    rw [if_neg (by simp)]
    exact Outcome.bind_eq_ok.mpr
      ⟨s.types, ColumnType.mapM_ofName_eq_ok.mpr rfl, ofTypes_eq_ok.mpr ⟨rfl, rfl⟩⟩

theorem declare_refused (names typeNames : List String) :
    Outcome.FailsIn (fun fault => fault.ofDeclaration = true) (declare names typeNames) := by
  unfold declare
  refine .ite (.error rfl) (.bind (.mapM fun s => ?_) fun types => ?_)
  · exact .ite (.ok _) (.ite (.ok _) (.error rfl))
  · refine .ite ?_ (.error rfl)
    unfold ofColumns
    split
    · exact .error rfl
    · exact .ok _

theorem ofLines_eq_ok {header types : List Char} : ofLines header types = .ok s ↔
    s.columns ≠ [] ∧ header = s.headerLine ∧ types = s.typesLine := by
  rw [ofLines, declare_eq_ok]
  constructor
  · rintro ⟨hn, ht⟩
    refine ⟨fun he => ?_, ?_, ?_⟩
    · rw [names_eq_nil_iff.mpr he] at hn
      exact lineFields_ne_nil header hn
    · rw [headerLine, ← hn, fieldLine_lineFields]
    · rw [typesLine, ← ht, fieldLine_lineFields]
  · rintro ⟨hne, rfl, rfl⟩
    constructor
    · refine lineFields_fieldLine (mt names_eq_nil_iff.mp hne) fun f hf => ?_
      exact (isStorable_iff.mp (isStorable_of_mem_names hf)).1
    · refine lineFields_fieldLine (by simpa [Schema.types] using hne) fun f hf => ?_
      obtain ⟨t, -, rfl⟩ := List.mem_map.mp hf
      exact (isStorable_iff.mp t.isStorable_name).1

end Schema

end TableStore
