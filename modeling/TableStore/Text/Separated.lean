/-! Text cut at separators: fields between separators, and lines. Both cuts work
on lists over any alphabet, so characters and bytes are cut by one definition. -/
namespace TableStore.Text

/-- The pieces between the separators; there is one more piece than separators. -/
def splitAt [DecidableEq α] (sep : α) : List α → List (List α)
  | [] => [[]]
  | a :: rest =>
    if a = sep then [] :: splitAt sep rest
    else
      match splitAt sep rest with
      | [] => [[a]]
      | piece :: pieces => (a :: piece) :: pieces

theorem splitAt_ne_nil [DecidableEq α] (sep : α) (l : List α) : splitAt sep l ≠ [] := by
  cases l with
  | nil => simp [splitAt]
  | cons a rest =>
    simp only [splitAt]
    split
    · simp
    · split <;> simp

def joinWith (sep : α) : List (List α) → List α
  | [] => []
  | [piece] => piece
  | piece :: pieces => piece ++ sep :: joinWith sep pieces

/-- Lines end at a line feed, together with one carriage return just before it.
Text after the last line feed is a line as it stands, unless it is empty. -/
def linesBy [DecidableEq α] (feed ret : α) : List α → List (List α)
  | [] => []
  | [a] => if a = feed then [[]] else [[a]]
  | a :: b :: rest =>
    if a = feed then [] :: linesBy feed ret (b :: rest)
    else if a = ret ∧ b = feed then [] :: linesBy feed ret rest
    else
      match linesBy feed ret (b :: rest) with
      | [] => [[a]]
      | line :: lines => (a :: line) :: lines

def lines (cs : List Char) : List (List Char) :=
  linesBy '\n' '\r' cs

def byteLines (bytes : List UInt8) : List (List UInt8) :=
  linesBy 10 13 bytes

theorem splitAt_joinWith [DecidableEq α] {sep : α} {pieces : List (List α)}
    (hne : pieces ≠ []) (h : ∀ piece ∈ pieces, sep ∉ piece) :
    splitAt sep (joinWith sep pieces) = pieces := by
  have single : ∀ piece : List α, sep ∉ piece → splitAt sep piece = [piece] := by
    intro piece hp
    induction piece with
    | nil => rfl
    | cons a rest ih =>
      have ha : a ≠ sep := fun e => hp (by simp [e])
      simp [splitAt, ha, ih fun hr => hp (by simp [hr])]
  have before : ∀ (piece : List α) (l : List α), sep ∉ piece →
      splitAt sep (piece ++ sep :: l) = piece :: splitAt sep l := by
    intro piece l hp
    induction piece with
    | nil => simp [splitAt]
    | cons a rest ih =>
      have ha : a ≠ sep := fun e => hp (by simp [e])
      simp [splitAt, ha, ih fun hr => hp (by simp [hr])]
  induction pieces with
  | nil => exact absurd rfl hne
  | cons piece pieces ih =>
    cases pieces with
    | nil => exact single piece (h piece (by simp))
    | cons next pieces =>
      rw [joinWith, before piece _ (h piece (by simp)),
        ih (by simp) fun p hp => h p (by simp [hp])]
      simp

theorem joinWith_splitAt [DecidableEq α] (sep : α) (l : List α) :
    joinWith sep (splitAt sep l) = l := by
  induction l with
  | nil => rfl
  | cons a rest ih =>
    simp only [splitAt]
    split
    · next h =>
      cases hs : splitAt sep rest with
      | nil => exact absurd hs (splitAt_ne_nil sep rest)
      | cons piece pieces => rw [← ih, hs, joinWith, h, List.nil_append]; simp
    · cases hs : splitAt sep rest with
      | nil => exact absurd hs (splitAt_ne_nil sep rest)
      | cons piece pieces =>
        rw [hs] at ih
        cases pieces with
        | nil => simpa [joinWith] using ih
        | cons next pieces => rw [← ih]; simp [joinWith]

end TableStore.Text
