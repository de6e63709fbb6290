import TableStore.Text.Separated

/-! What stands in the pieces between separators. -/
namespace TableStore.Text

theorem mem_joinWith {sep a : α} {pieces : List (List α)} (h : a ∈ joinWith sep pieces) :
    a = sep ∨ ∃ piece ∈ pieces, a ∈ piece := by
  induction pieces with
  | nil => cases h
  | cons piece pieces ih =>
    cases pieces with
    | nil => exact .inr ⟨piece, by simp, h⟩
    | cons next pieces =>
      rw [joinWith, List.mem_append, List.mem_cons] at h
      · rcases h with h | rfl | h
        · exact .inr ⟨piece, by simp, h⟩
        · exact .inl rfl
        · rcases ih h with rfl | ⟨p, hp, ha⟩
          · exact .inl rfl
          · exact .inr ⟨p, List.mem_cons_of_mem _ hp, ha⟩
      · simp

theorem mem_joinWith_of_mem {sep a : α} {pieces : List (List α)} {piece : List α}
    (hp : piece ∈ pieces) (ha : a ∈ piece) : a ∈ joinWith sep pieces := by
  induction pieces with
  | nil => cases hp
  | cons first pieces ih =>
    cases pieces with
    | nil => exact List.mem_singleton.mp hp ▸ ha
    | cons next pieces =>
      rw [joinWith, List.mem_append, List.mem_cons]
      · rcases List.mem_cons.mp hp with rfl | hp
        · exact .inl ha
        · exact .inr (.inr (ih hp))
      · simp

theorem mem_of_mem_splitAt [DecidableEq α] {sep a : α} {l piece : List α}
    (h : piece ∈ splitAt sep l) (ha : a ∈ piece) : a ∈ l ∧ a ≠ sep := by
  induction l generalizing piece with
  | nil =>
    rw [List.mem_singleton.mp h] at ha
    cases ha
  | cons b rest ih =>
    rw [splitAt] at h
    split at h
    · rcases List.mem_cons.mp h with rfl | h
      · cases ha
      · have := ih h ha
        exact ⟨List.mem_cons_of_mem _ this.1, this.2⟩
    · next hb =>
      split at h
      · next hs => exact absurd hs (splitAt_ne_nil sep rest)
      · next first pieces hs =>
        rw [hs] at ih
        rcases List.mem_cons.mp h with rfl | h
        · rcases List.mem_cons.mp ha with rfl | ha
          · exact ⟨by simp, hb⟩
          · have := ih (by simp) ha
            exact ⟨List.mem_cons_of_mem _ this.1, this.2⟩
        · have := ih (List.mem_cons_of_mem _ h) ha
          exact ⟨List.mem_cons_of_mem _ this.1, this.2⟩

end TableStore.Text
