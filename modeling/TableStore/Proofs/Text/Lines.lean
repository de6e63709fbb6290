import TableStore.Text.Separated

/-! Lines put together again. Ending every line with a line feed is the inverse of
cutting at line feeds, on any alphabet, as long as no carriage return is around. -/
namespace TableStore.Text

/-- The lines one after another, each ended by a line feed. -/
def endLines (feed : α) (ls : List (List α)) : List α :=
  ls.flatMap fun line => line ++ [feed]

variable [DecidableEq α] {feed ret : α}

omit [DecidableEq α] in
theorem endLines_eq_joinWith (feed : α) (ls : List (List α)) :
    endLines feed ls = joinWith feed (ls ++ [[]]) := by
  induction ls with
  | nil => rfl
  | cons line ls ih =>
    rw [List.cons_append, joinWith, ← ih, endLines, List.flatMap_cons, List.append_assoc]
    · rfl
    · simp

/-- Between the line feeds stand the lines, and nothing stands behind the last one. -/
theorem splitAt_endLines {ls : List (List α)} (h : ∀ line ∈ ls, feed ∉ line) :
    splitAt feed (endLines feed ls) = ls ++ [[]] := by
  rw [endLines_eq_joinWith, splitAt_joinWith (by simp)]
  rw [List.forall_mem_append, List.forall_mem_singleton]
  exact ⟨h, List.not_mem_nil⟩

theorem linesBy_feed_cons (l : List α) :
    linesBy feed ret (feed :: l) = [] :: linesBy feed ret l := by
  cases l <;> simp [linesBy]

theorem linesBy_cons {a b : α} (hf : a ≠ feed) (hr : a = ret → b ≠ feed) (l : List α) :
    linesBy feed ret (a :: b :: l) =
      match linesBy feed ret (b :: l) with
      | [] => [[a]]
      | line :: lines => (a :: line) :: lines := by
  conv => lhs; unfold linesBy
  exact (if_neg hf).trans (if_neg fun h => hr h.1 h.2)

theorem linesBy_ne_nil {l : List α} (h : l ≠ []) : linesBy feed ret l ≠ [] := by
  fun_induction linesBy feed ret l <;> simp_all

theorem linesBy_of_not_mem {l : List α} (h : l ≠ []) (hf : feed ∉ l) :
    linesBy feed ret l = [l] := by
  induction l with
  | nil => exact absurd rfl h
  | cons a l ih =>
    rw [List.mem_cons, not_or] at hf
    cases l with
    | nil => exact if_neg (Ne.symm hf.1)
    | cons b l =>
      have hb : b ≠ feed := fun e => hf.2 (by simp [e])
      rw [linesBy_cons (Ne.symm hf.1) fun _ => hb, ih (by simp) hf.2]

/-- Text before a line belongs to it, unless it ends together with the line feed. -/
theorem linesBy_append {piece l line : List α} {ls : List (List α)} (hf : feed ∉ piece)
    (hr : ret ∈ piece → l.head? ≠ some feed) (hl : linesBy feed ret l = line :: ls) :
    linesBy feed ret (piece ++ l) = (piece ++ line) :: ls := by
  induction piece with
  | nil => exact hl
  | cons a piece ih =>
    rw [List.mem_cons, not_or] at hf
    have ih := ih hf.2 fun h => hr (List.mem_cons_of_mem _ h)
    cases hnext : piece ++ l with
    | nil =>
      rw [hnext] at ih
      cases ih
    | cons b next =>
      rw [hnext] at ih
      rw [List.cons_append, hnext, linesBy_cons (Ne.symm hf.1), ih]
      · rfl
      · rintro rfl rfl
        cases piece with
        | nil => exact hr (by simp) (by rw [show l = _ from hnext]; rfl)
        | cons c piece =>
          obtain ⟨rfl, -⟩ := List.cons.inj hnext
          exact hf.2 (by simp)

theorem linesBy_line {line : List α} (hf : feed ∉ line) (hr : ret ∉ line) (l : List α) :
    linesBy feed ret (line ++ feed :: l) = line :: linesBy feed ret l := by
  have := linesBy_append hf (fun h => absurd h hr) (linesBy_feed_cons l)
  rwa [List.append_nil] at this

theorem linesBy_endLines {ls : List (List α)} (h : ∀ line ∈ ls, feed ∉ line ∧ ret ∉ line) :
    linesBy feed ret (endLines feed ls) = ls := by
  induction ls with
  | nil => rfl
  | cons line ls ih =>
    have hline := h line (by simp)
    rw [endLines, List.flatMap_cons, List.append_assoc, List.singleton_append,
      linesBy_line hline.1 hline.2]
    congr 1
    exact ih fun l hl => h l (by simp [hl])

/-- The last line has to be ended too: an unended line reads like an ended one. -/
theorem endLines_linesBy {l : List α} (hr : ret ∉ l) (hl : l = [] ∨ l.getLast? = some feed) :
    endLines feed (linesBy feed ret l) = l := by
  fun_induction linesBy feed ret l with
  | case1 => rfl
  | case2 => simp [endLines]
  | case3 a ha => simp [ha] at hl
  | case4 b rest ih =>
    have hlast : (b :: rest).getLast? = some feed := by simpa using hl
    have ih := ih (fun h => hr (by simp [h])) (.inr hlast)
    rw [endLines, List.flatMap_cons]
    exact congrArg (feed :: ·) ih
  | case5 a b rest ha hab => exact absurd (by simp [hab.1]) hr
  | case6 a b rest ha hab hnil ih =>
    have hlast : (b :: rest).getLast? = some feed := by simpa using hl
    have ih := ih (fun h => hr (by simp [h])) (.inr hlast)
    rw [hnil] at ih
    exact absurd ih (by simp [endLines])
  | case7 a b rest ha hab line lines hlines ih =>
    have hlast : (b :: rest).getLast? = some feed := by simpa using hl
    have ih := ih (fun h => hr (by simp [h])) (.inr hlast)
    rw [hlines] at ih
    rw [← ih]
    simp [endLines]

theorem mem_of_mem_linesBy {l line : List α} (h : line ∈ linesBy feed ret l) {a : α}
    (ha : a ∈ line) : a ∈ l ∧ a ≠ feed := by
  fun_induction linesBy feed ret l generalizing line with
  | case1 => cases h
  | case2 =>
    rw [List.mem_singleton.mp h] at ha
    cases ha
  | case3 b hb =>
    rw [List.mem_singleton.mp h] at ha
    exact ⟨ha, List.mem_singleton.mp ha ▸ hb⟩
  | case4 b rest ih =>
    rcases List.mem_cons.mp h with rfl | h
    · cases ha
    · have := ih h ha
      exact ⟨List.mem_cons_of_mem _ this.1, this.2⟩
  | case5 b d rest hb hbd ih =>
    rcases List.mem_cons.mp h with rfl | h
    · cases ha
    · have := ih h ha
      exact ⟨by simp [this.1], this.2⟩
  | case6 b d rest hb hbd hnil ih =>
    rw [List.mem_singleton.mp h, List.mem_singleton] at ha
    subst ha
    exact ⟨by simp, hb⟩
  | case7 b d rest hb hbd first lines hlines ih =>
    have ih : ∀ l ∈ first :: lines, a ∈ l → a ∈ d :: rest ∧ a ≠ feed :=
      fun l hl ha => ih (hlines ▸ hl) ha
    rcases List.mem_cons.mp h with rfl | h
    · rcases List.mem_cons.mp ha with rfl | ha
      · exact ⟨by simp, hb⟩
      · have := ih first (by simp) ha
        exact ⟨List.mem_cons_of_mem _ this.1, this.2⟩
    · have := ih line (by simp [h]) ha
      exact ⟨List.mem_cons_of_mem _ this.1, this.2⟩

end TableStore.Text
