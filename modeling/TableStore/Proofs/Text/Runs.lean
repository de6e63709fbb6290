import Mathlib.Data.List.TakeWhile
import Mathlib.Data.List.DropRight
import TableStore.Text.Blank

/-! The longest runs at the ends of a list whose members all satisfy a predicate. -/
namespace TableStore.Text

variable {p : α → Bool} {start l kept rest : List α}

/-- A run ends where the next member does not belong to it. -/
theorem takeWhile_append_stop (h : ∀ a ∈ l, p a = true) (hr : ∀ a ∈ rest.head?, p a = false) :
    (l ++ rest).takeWhile p = l := by
  rw [List.takeWhile_append_of_pos h]
  cases rest with
  | nil => simp
  | cons a rest => simp [hr a rfl]

theorem dropWhile_append_stop (h : ∀ a ∈ l, p a = true) (hr : ∀ a ∈ rest.head?, p a = false) :
    (l ++ rest).dropWhile p = rest := by
  rw [List.dropWhile_append_of_pos h]
  cases rest with
  | nil => rfl
  | cons a rest => simp [hr a rfl]

theorem head?_dropWhile (p : α → Bool) (l : List α) : ∀ a ∈ (l.dropWhile p).head?, p a = false := by
  intro a ha
  have := List.head?_dropWhile_not p l
  rw [Option.mem_def.mp ha] at this
  exact this

theorem rdropWhile_append_stop (h : ∀ a ∈ rest, p a = true) (hl : ∀ a ∈ l.getLast?, p a = false) :
    (l ++ rest).rdropWhile p = l := by
  rw [List.rdropWhile, List.reverse_append, dropWhile_append_stop, List.reverse_reverse]
  · simpa using h
  · simpa using hl

theorem getLast?_rdropWhile (p : α → Bool) (l : List α) :
    ∀ a ∈ (l.rdropWhile p).getLast?, p a = false := by
  intro a ha
  rw [List.rdropWhile, List.getLast?_reverse] at ha
  exact head?_dropWhile p l.reverse a ha

theorem dropWhileEnd_eq_rdropWhile (p : α → Bool) (l : List α) :
    dropWhileEnd p l = l.rdropWhile p := by
  induction l with
  | nil => rfl
  | cons a l ih =>
    rw [dropWhileEnd, ih, List.rdropWhile, List.rdropWhile, List.reverse_cons,
      List.dropWhile_append]
    cases l.reverse.dropWhile p using List.reverseRecOn with
    | nil => by_cases ha : p a = true <;> simp [ha]
    | append_singleton l b => simp

/-- Stripping leaves what begins and ends with no member of the runs. -/
theorem strip_eq_iff : strip p l = kept ↔ ∃ start stop, l = start ++ kept ++ stop ∧
    (∀ a ∈ start, p a = true) ∧ (∀ a ∈ stop, p a = true) ∧
    (∀ a ∈ kept.head?, p a = false) ∧ ∀ a ∈ kept.getLast?, p a = false := by
  rw [strip, dropWhileEnd_eq_rdropWhile]
  constructor
  · rintro rfl
    refine ⟨l.takeWhile p, (l.dropWhile p).rtakeWhile p, ?_, fun a => List.mem_takeWhile_imp,
      fun a => List.mem_rtakeWhile_imp, ?_, getLast?_rdropWhile p _⟩
    · rw [List.append_assoc, List.rdropWhile_append_rtakeWhile, List.takeWhile_append_dropWhile]
    · intro a ha
      obtain ⟨stop, hstop⟩ := List.rdropWhile_prefix p (l.dropWhile p)
      apply head?_dropWhile p l a
      rw [← hstop, List.head?_append, Option.mem_def.mp ha]
      rfl
  · rintro ⟨start, stop, rfl, hstart, hstop, hfirst, hlast⟩
    rw [List.append_assoc, List.dropWhile_append_of_pos hstart]
    cases kept with
    | nil =>
      rw [List.nil_append, List.dropWhile_eq_nil_iff.mpr hstop]
      rfl
    | cons a kept =>
      rw [List.cons_append, List.dropWhile_cons_of_neg (by simp [hfirst a rfl]),
        ← List.cons_append, rdropWhile_append_stop hstop hlast]

end TableStore.Text
