import Mathlib.Data.List.Forall2
import TableStore.Shell.Grid
import TableStore.Sql.Token
import TableStore.Proofs.Text.Lines

/-! Grids of text. All lines but the last are equally long, the columns have their boundaries at
the same positions in all of them, and every cell shows its whole text between two boundaries. -/
namespace TableStore.Grid

open TableStore.Text TableStore.Sql

/-- The grid as one text, in which every line is ended. -/
def printed (columns : List String) (rows : List (List String)) : List Char :=
  endLines '\n' ((draw columns rows).map String.toList)

/-- A line with a mark at each of these positions, and these cells between neighbouring marks. -/
structure Framed (mark : Char) (edges : List Nat) (cells : List (List Char)) (cs : List Char) :
    Prop where
  marks : ∀ e ∈ edges, cs[e]? = some mark
  between : edges.zipWith (fun e next => slice cs (e + 1) next) edges.tail = cells

/-- A text between two blanks, with `left` and `right` more of them at its sides. -/
def padded (left right : Nat) (text : String) : List Char :=
  ' ' :: (blanks left ++ text.toList ++ blanks right) ++ [' ']

section Widths

variable {ws : List Nat} {row texts columns : List String} {rows : List (List String)}
  {i w : Nat}

/-- The columns are wide enough for these texts. -/
def Fits (ws : List Nat) (texts : List String) : Prop :=
  List.Forall₂ (fun w text => text.length ≤ w) ws texts

/-- The widths that show one more row. -/
def widen (ws : List Nat) (row : List String) : List Nat :=
  ws.zipWith (fun w cell => max w cell.length) row ++ ws.drop row.length

theorem widths_eq (columns : List String) (rows : List (List String)) :
    widths columns rows = rows.foldl widen (columns.map String.length) := rfl

theorem widen_cons (w : Nat) (ws : List Nat) (text : String) (row : List String) :
    widen (w :: ws) (text :: row) = max w text.length :: widen ws row := rfl

theorem widen_nil_left (row : List String) : widen [] row = [] := by
  simp [widen]

theorem widen_nil_right (ws : List Nat) : widen ws [] = ws := by
  simp [widen]

theorem length_widen (ws : List Nat) (row : List String) : (widen ws row).length = ws.length := by
  simp only [widen, List.length_append, List.length_zipWith, List.length_drop]
  omega

theorem Fits.widen (h : Fits ws texts) (row : List String) : Fits (widen ws row) texts := by
  induction h generalizing row with
  | nil =>
    rw [widen_nil_left]
    exact .nil
  | cons fits tail ih =>
    cases row with
    | nil =>
      rw [widen_nil_right]
      exact .cons fits tail
    | cons text row =>
      rw [widen_cons]
      exact .cons (Nat.le_trans fits (Nat.le_max_left _ _)) (ih row)

theorem fits_widen (h : row.length = ws.length) : Fits (widen ws row) row := by
  induction ws generalizing row with
  | nil =>
    rw [List.length_eq_zero_iff.mp h]
    exact .nil
  | cons w ws ih =>
    cases row with
    | nil => cases h
    | cons text row =>
      rw [widen_cons]
      exact .cons (Nat.le_max_right _ _) (ih (Nat.succ.inj h))

theorem Fits.foldl_widen (h : Fits ws texts) (rows : List (List String)) :
    Fits (rows.foldl Grid.widen ws) texts := by
  induction rows generalizing ws with
  | nil => exact h
  | cons row rows ih => exact ih (h.widen row)

theorem fits_foldl_widen (h : ∀ row ∈ rows, row.length = ws.length) :
    ∀ row ∈ rows, Fits (rows.foldl widen ws) row := by
  induction rows generalizing ws with
  | nil => nofun
  | cons row rows ih =>
    rw [List.forall_mem_cons] at h ⊢
    refine ⟨(fits_widen h.1).foldl_widen rows, ih fun r hr => ?_⟩
    rw [length_widen]
    exact h.2 r hr

theorem fits_widths (h : ∀ row ∈ rows, row.length = columns.length) :
    ∀ texts ∈ columns :: rows, Fits (widths columns rows) texts := by
  have names : Fits (columns.map String.length) columns := by
    rw [Fits, List.forall₂_map_left_iff]
    exact List.forall₂_same.mpr fun name _ => Nat.le_refl _
  rw [widths_eq, List.forall_mem_cons]
  refine ⟨names.foldl_widen rows, fits_foldl_widen fun row hr => ?_⟩
  rw [List.length_map, h row hr]

theorem getElem?_widen (h : (widen ws row)[i]? = some w) :
    ws[i]? = some w ∨ ∃ text, row[i]? = some text ∧ text.length = w := by
  induction ws generalizing row i with
  | nil =>
    rw [widen_nil_left] at h
    cases h
  | cons v ws ih =>
    cases row with
    | nil =>
      rw [widen_nil_right] at h
      exact .inl h
    | cons text row =>
      rw [widen_cons] at h
      cases i with
      | zero =>
        obtain rfl : max v text.length = w := Option.some.inj h
        rcases Nat.le_total v text.length with hle | hle
        · exact .inr ⟨text, rfl, (Nat.max_eq_right hle).symm⟩
        · exact .inl (congrArg some (Nat.max_eq_left hle).symm)
      | succ i => exact ih h

theorem getElem?_foldl_widen (h : (rows.foldl widen ws)[i]? = some w) :
    ws[i]? = some w ∨ ∃ row ∈ rows, ∃ text, row[i]? = some text ∧ text.length = w := by
  induction rows generalizing ws with
  | nil => exact .inl h
  | cons row rows ih =>
    rcases ih h with h | ⟨texts, hrow, htext⟩
    · exact (getElem?_widen h).imp_right fun htext => ⟨row, List.mem_cons_self, htext⟩
    · exact .inr ⟨texts, List.mem_cons_of_mem _ hrow, htext⟩

/-- No column is wider than its widest text. -/
theorem getElem?_widths (h : (widths columns rows)[i]? = some w) :
    ∃ texts ∈ columns :: rows, ∃ text, texts[i]? = some text ∧ text.length = w := by
  rcases getElem?_foldl_widen h with h | ⟨row, hrow, htext⟩
  · rw [List.getElem?_map, Option.map_eq_some_iff] at h
    exact ⟨columns, List.mem_cons_self, h⟩
  · exact ⟨row, List.mem_cons_of_mem _ hrow, htext⟩

end Widths

section Fence

variable {mark : Char} {piece cs : List Char} {pieces : List (List Char)} {pos : Nat}
  {ns : List Nat}

/-- Where the marks around pieces of these lengths stand, if the first one stands at `pos`. -/
def edgesFrom (pos : Nat) : List Nat → List Nat
  | [] => [pos]
  | n :: ns => pos :: edgesFrom (pos + n + 1) ns

theorem head?_edgesFrom (pos : Nat) (ns : List Nat) : (edgesFrom pos ns).head? = some pos := by
  cases ns <;> rfl

theorem fence_cons (mark : Char) (piece : List Char) (pieces : List (List Char)) :
    fence mark (piece :: pieces) = mark :: (piece ++ fence mark pieces) := by
  simp [fence]

theorem slice_append (front piece back : List Char) :
    slice (front ++ piece ++ back) front.length (front.length + piece.length) = piece := by
  rw [slice, List.append_assoc, List.drop_left, Nat.add_sub_cancel_left, List.take_left]

theorem Framed.cons {edges : List Nat} {next : Nat} (h : Framed mark edges pieces cs)
    (hmark : cs[pos]? = some mark) (hnext : edges.head? = some next)
    (hpiece : slice cs (pos + 1) next = piece) :
    Framed mark (pos :: edges) (piece :: pieces) cs := by
  obtain ⟨rest, rfl⟩ := List.head?_eq_some_iff.mp hnext
  refine ⟨List.forall_mem_cons.mpr ⟨hmark, h.marks⟩, ?_⟩
  rw [List.tail_cons, List.zipWith_cons_cons, hpiece, ← h.between]
  rfl

/-- The marks of a fence, and the pieces between them, behind any text. -/
theorem framed_append_fence (front : List Char) (mark : Char) (pieces : List (List Char)) :
    Framed mark (edgesFrom front.length (pieces.map List.length)) pieces
      (front ++ fence mark pieces) := by
  induction pieces generalizing front with
  | nil => exact ⟨by simp [edgesFrom, fence], rfl⟩
  | cons piece pieces ih =>
    have order : front ++ fence mark (piece :: pieces) =
        front ++ [mark] ++ piece ++ fence mark pieces := by
      simp [fence_cons]
    have tail := ih (front ++ [mark] ++ piece)
    have stop : (front ++ [mark] ++ piece).length = front.length + piece.length + 1 := by
      simp only [List.length_append, List.length_singleton]
      omega
    rw [← order, stop] at tail
    refine tail.cons ?_ (head?_edgesFrom _ _) ?_
    · simp [fence_cons]
    · have inner := slice_append (front ++ [mark]) piece (fence mark pieces)
      rw [List.length_append, List.length_singleton, Nat.add_right_comm] at inner
      rw [order, inner]

theorem framed_fence (mark : Char) (pieces : List (List Char)) :
    Framed mark (edgesFrom 0 (pieces.map List.length)) pieces (fence mark pieces) :=
  framed_append_fence [] mark pieces

theorem getLast?_edgesFrom (pos : Nat) (mark : Char) (pieces : List (List Char)) :
    (edgesFrom pos (pieces.map List.length)).getLast? =
      some (pos + (fence mark pieces).length - 1) := by
  induction pieces generalizing pos with
  | nil => simp [edgesFrom, fence]
  | cons piece pieces ih =>
    have hne : edgesFrom (pos + piece.length + 1) (pieces.map List.length) ≠ [] := by
      rintro h
      have := head?_edgesFrom (pos + piece.length + 1) (pieces.map List.length)
      rw [h] at this
      cases this
    rw [List.map_cons, edgesFrom, List.getLast?_cons_of_ne_nil hne, ih, fence_cons]
    simp only [List.length_cons, List.length_append]
    congr 1
    omega

theorem length_edgesFrom (pos : Nat) (ns : List Nat) :
    (edgesFrom pos ns).length = ns.length + 1 := by
  induction ns generalizing pos with
  | nil => rfl
  | cons n ns ih => rw [edgesFrom, List.length_cons, ih, List.length_cons]

theorem le_of_mem_edgesFrom {e : Nat} (h : e ∈ edgesFrom pos ns) : pos ≤ e := by
  induction ns generalizing pos with
  | nil => exact Nat.le_of_eq (List.mem_singleton.mp h).symm
  | cons n ns ih =>
    rcases List.mem_cons.mp h with rfl | h
    · exact Nat.le_refl _
    · have := ih h
      omega

theorem pairwise_edgesFrom (pos : Nat) (ns : List Nat) :
    (edgesFrom pos ns).Pairwise (· < ·) := by
  induction ns generalizing pos with
  | nil => exact List.pairwise_singleton _ _
  | cons n ns ih =>
    refine List.pairwise_cons.mpr ⟨fun e he => ?_, ih _⟩
    have := le_of_mem_edgesFrom he
    omega

/-- A fence has a mark at each end, and one between neighbouring pieces. -/
theorem exists_inner_edges (mark : Char) (hne : pieces ≠ []) : ∃ inner,
    edgesFrom 0 (pieces.map List.length) = 0 :: (inner ++ [(fence mark pieces).length - 1]) ∧
      inner.length + 1 = pieces.length := by
  obtain ⟨piece, pieces, rfl⟩ := List.exists_cons_of_ne_nil hne
  have hlast := getLast?_edgesFrom (0 + piece.length + 1) mark pieces
  obtain ⟨inner, hinner⟩ := List.getLast?_eq_some_iff.mp hlast
  have hlength := congrArg List.length hinner
  rw [length_edgesFrom, List.length_map, List.length_append, List.length_singleton] at hlength
  have hend : 0 + piece.length + 1 + (fence mark pieces).length =
      (fence mark (piece :: pieces)).length := by
    simp only [fence_cons, List.length_cons, List.length_append]
    omega
  refine ⟨inner, ?_, hlength.symm⟩
  rw [List.map_cons, edgesFrom, hinner, hend]

theorem notMem_fence {c : Char} (hmark : c ≠ mark) (h : ∀ piece ∈ pieces, c ∉ piece) :
    c ∉ fence mark pieces := by
  simp only [fence, List.mem_cons, List.mem_flatMap, List.mem_append, List.not_mem_nil, or_false,
    not_or, not_exists, not_and]
  exact ⟨hmark, fun piece hp => ⟨h piece hp, hmark⟩⟩

end Fence

section Cells

variable {ws : List Nat} {texts : List String} {align : Nat → String → List Char} {w : Nat}
  {text : String} {c : Char}

def dashesOf (ws : List Nat) : List (List Char) :=
  ws.map fun w => List.replicate (w + 2) '-'

theorem rule_eq (ws : List Nat) : rule ws = fence '+' (dashesOf ws) := rfl

theorem map_length_dashesOf (ws : List Nat) :
    (dashesOf ws).map List.length = ws.map (· + 2) := by
  simp [dashesOf]

/-- The cells of a line, each with a blank at its sides. -/
def cellsOf (align : Nat → String → List Char) (ws : List Nat) (texts : List String) :
    List (List Char) :=
  ws.zipWith (fun w text => ' ' :: align w text ++ [' ']) texts

theorem cellLine_eq (align : Nat → String → List Char) (ws : List Nat) (texts : List String) :
    cellLine align ws texts = fence '|' (cellsOf align ws texts) := rfl

theorem length_centered (h : text.length ≤ w) : (centered w text).length = w := by
  simp only [centered, blanks, List.length_append, List.length_replicate, String.length_toList]
  omega

theorem length_flushLeft (h : text.length ≤ w) : (flushLeft w text).length = w := by
  simp only [flushLeft, blanks, List.length_append, List.length_replicate, String.length_toList]
  omega

/-- A centred text has as many blanks on its left as on its right, or one less. -/
theorem centered_padded (w : Nat) (text : String) : ∃ left right,
    (right = left ∨ right = left + 1) ∧
      ' ' :: centered w text ++ [' '] = padded left right text := by
  refine ⟨(w - text.length) / 2, w - text.length - (w - text.length) / 2, ?_, rfl⟩
  omega

theorem flushLeft_padded (w : Nat) (text : String) : ∃ right,
    ' ' :: flushLeft w text ++ [' '] = padded 0 right text :=
  ⟨w - text.length, rfl⟩

theorem Fits.map_length_cellsOf (h : Fits ws texts)
    (halign : ∀ w text, text.length ≤ w → (align w text).length = w) :
    (cellsOf align ws texts).map List.length = ws.map (· + 2) := by
  induction h with
  | nil => rfl
  | cons fits tail ih =>
    rw [cellsOf, List.zipWith_cons_cons, List.map_cons, List.map_cons, ← ih]
    simp [halign _ _ fits, cellsOf]

theorem Fits.forall₂_cellsOf {P : String → List Char → Prop} (h : Fits ws texts)
    (hP : ∀ w text, P text (' ' :: align w text ++ [' '])) :
    List.Forall₂ P texts (cellsOf align ws texts) := by
  induction h with
  | nil => exact .nil
  | cons fits tail ih => exact .cons (hP _ _) ih

theorem notMem_padded {left right : Nat} (hblank : c ≠ ' ') (h : c ∉ text.toList) :
    c ∉ padded left right text := by
  simp [padded, blanks, hblank, h]

theorem Fits.notMem_cellsOf (h : Fits ws texts) (hblank : c ≠ ' ')
    (hpadded : ∀ w text, ∃ left right, ' ' :: align w text ++ [' '] = padded left right text)
    (htexts : ∀ text ∈ texts, c ∉ text.toList) : ∀ cell ∈ cellsOf align ws texts, c ∉ cell := by
  induction h with
  | nil => nofun
  | @cons w text _ _ fits tail ih =>
    rw [List.forall_mem_cons] at htexts
    obtain ⟨left, right, heq⟩ := hpadded w text
    have inside : c ∉ ' ' :: align w text ++ [' '] := heq ▸ notMem_padded hblank htexts.1
    exact List.forall_mem_cons.mpr ⟨inside, ih htexts.2⟩

end Cells

/-- Lines that show rows under the names of their columns. The columns have their boundaries at
`edges`, and each of them is as wide as its widest text. -/
structure Shows (columns : List String) (rows : List (List String)) (edges : List Nat)
    (separator header : String) (body : List String) : Prop where
  outer : ∃ inner, edges = 0 :: (inner ++ [separator.length - 1]) ∧
    inner.length + 1 = columns.length
  increasing : edges.Pairwise (· < ·)
  lengths : ∀ line ∈ header :: body, line.length = separator.length
  separated : ∃ dashes, Framed '+' edges dashes separator.toList ∧
    ∀ (i : Nat) dash, dashes[i]? = some dash → ∃ texts ∈ columns :: rows, ∃ text : String,
      texts[i]? = some text ∧ dash = List.replicate (text.length + 2) '-'
  named : ∃ cells, Framed '|' edges cells header.toList ∧
    List.Forall₂ (fun name cell => ∃ left right, (right = left ∨ right = left + 1) ∧
      cell = padded left right name) columns cells
  filled : List.Forall₂ (fun row line => ∃ cells, Framed '|' edges cells (String.toList line) ∧
    List.Forall₂ (fun text cell => ∃ right, cell = padded 0 right text) row cells) rows body

section Draw

variable {columns : List String} {rows : List (List String)} {mark : Char} {ws : List Nat}
  {pieces : List (List Char)}

theorem framed_of_lengths (mark : Char) (h : pieces.map List.length = ws.map (· + 2)) :
    Framed mark (edgesFrom 0 (ws.map (· + 2))) pieces (fence mark pieces) :=
  h ▸ framed_fence mark pieces

/-- How long a line is depends on the lengths of its pieces only. -/
theorem length_fence_congr {mark' : Char} {pieces' : List (List Char)}
    (h : pieces.map List.length = pieces'.map List.length) :
    (fence mark pieces).length = (fence mark' pieces').length := by
  have hlast := getLast?_edgesFrom 1 mark pieces
  rw [h, getLast?_edgesFrom 1 mark' pieces'] at hlast
  have := Option.some.inj hlast
  omega

theorem getElem?_dashesOf_widths {i : Nat} {dash : List Char}
    (h : (dashesOf (widths columns rows))[i]? = some dash) : ∃ texts ∈ columns :: rows,
      ∃ text : String, texts[i]? = some text ∧ dash = List.replicate (text.length + 2) '-' := by
  rw [dashesOf, List.getElem?_map, Option.map_eq_some_iff] at h
  obtain ⟨w, hw, rfl⟩ := h
  obtain ⟨texts, htexts, text, htext, rfl⟩ := getElem?_widths hw
  exact ⟨texts, htexts, text, htext, rfl⟩

/-- A line has a boundary at each end, and one between neighbouring columns. -/
theorem exists_inner_widths (hne : columns ≠ []) (fits : Fits ws columns) : ∃ inner,
    edgesFrom 0 (ws.map (· + 2)) = 0 :: (inner ++ [(rule ws).length - 1]) ∧
      inner.length + 1 = columns.length := by
  have wide : (dashesOf ws).length = columns.length := by
    rw [dashesOf, List.length_map, fits.length_eq]
  have hpieces : dashesOf ws ≠ [] := by
    rw [← List.length_pos_iff, wide]
    exact List.length_pos_iff.mpr hne
  rw [← map_length_dashesOf, rule_eq, ← wide]
  exact exists_inner_edges '+' hpieces

theorem shows_widths (hne : columns ≠ []) (h : ∀ row ∈ rows, row.length = columns.length) :
    let ws := widths columns rows
    Shows columns rows (edgesFrom 0 (ws.map (· + 2))) (String.ofList (rule ws))
      (String.ofList (cellLine centered ws columns))
      (rows.map fun row => String.ofList (cellLine flushLeft ws row)) := by
  intro ws
  have fits := fits_widths h
  rw [List.forall_mem_cons] at fits
  have dashes := map_length_dashesOf ws
  have names : (cellsOf centered ws columns).map List.length = ws.map (· + 2) :=
    fits.1.map_length_cellsOf fun _ _ => length_centered
  have fields (row : List String) (hr : row ∈ rows) :
      (cellsOf flushLeft ws row).map List.length = ws.map (· + 2) :=
    (fits.2 row hr).map_length_cellsOf fun _ _ => length_flushLeft
  constructor
  case outer =>
    rw [String.length_ofList]
    exact exists_inner_widths hne fits.1
  case increasing => exact pairwise_edgesFrom 0 _
  case lengths =>
    simp only [List.forall_mem_cons, List.forall_mem_map, String.length_ofList]
    exact ⟨length_fence_congr (names.trans dashes.symm),
      fun row hr => length_fence_congr ((fields row hr).trans dashes.symm)⟩
  case separated =>
    rw [String.toList_ofList, rule_eq]
    exact ⟨_, framed_of_lengths '+' dashes, fun i dash => getElem?_dashesOf_widths⟩
  case named =>
    rw [String.toList_ofList, cellLine_eq]
    exact ⟨_, framed_of_lengths '|' names, fits.1.forall₂_cellsOf centered_padded⟩
  case filled =>
    rw [List.forall₂_map_right_iff]
    refine List.forall₂_same.mpr fun row hr => ?_
    rw [String.toList_ofList, cellLine_eq]
    exact ⟨_, framed_of_lengths '|' (fields row hr),
      (fits.2 row hr).forall₂_cellsOf flushLeft_padded⟩

theorem newline_notMem_countLine (rows : List (List String)) :
    '\n' ∉ (countLine rows).toList := by
  have digits : '\n' ∉ Nat.toDigits 10 rows.length := by
    intro hm
    have := Nat.isDigit_of_mem_toDigits (by decide) (by decide) hm
    revert this
    decide
  simp [countLine, digits]

theorem notMem_rule {c : Char} (hplus : c ≠ '+') (hdash : c ≠ '-') : c ∉ rule ws := by
  refine notMem_fence hplus fun dash hd => ?_
  obtain ⟨w, -, rfl⟩ := List.mem_map.mp hd
  exact fun hm => hdash (List.eq_of_mem_replicate hm)

theorem newline_notMem_draw (h : ∀ row ∈ rows, row.length = columns.length)
    (htexts : ∀ texts ∈ columns :: rows, ∀ text ∈ texts, '\n' ∉ text.toList) :
    ∀ line ∈ draw columns rows, '\n' ∉ line.toList := by
  have fits := fits_widths h
  rw [List.forall_mem_cons] at fits htexts
  have separator : '\n' ∉ rule (widths columns rows) := notMem_rule (by decide) (by decide)
  have header : '\n' ∉ cellLine centered (widths columns rows) columns := by
    refine notMem_fence (by decide) (fits.1.notMem_cellsOf (by decide) (fun w text => ?_) htexts.1)
    obtain ⟨left, right, -, heq⟩ := centered_padded w text
    exact ⟨left, right, heq⟩
  have body (row : List String) (hr : row ∈ rows) :
      '\n' ∉ cellLine flushLeft (widths columns rows) row := by
    refine notMem_fence (by decide)
      ((fits.2 row hr).notMem_cellsOf (by decide) (fun w text => ?_) (htexts.2 row hr))
    obtain ⟨right, heq⟩ := flushLeft_padded w text
    exact ⟨0, right, heq⟩
  have bottom :
      ∀ line ∈ if rows.isEmpty then [] else [String.ofList (rule (widths columns rows))],
        '\n' ∉ line.toList := by
    split
    · nofun
    · simpa using separator
  simp only [draw, List.forall_mem_append, List.forall_mem_cons, List.forall_mem_map,
    String.toList_ofList]
  exact ⟨⟨⟨⟨separator, header, separator, nofun⟩, body⟩, bottom⟩,
    newline_notMem_countLine rows, nofun⟩

/-- A grid has a separator, the header and a separator, then a line for each row and, behind the
last one, a separator again, and the number of rows. All lines but this last one are equally long,
with the boundaries of the columns at the same positions and every text in full between its two;
and they are lines also of the printed text. -/
theorem draw_aligned (columns : List String) (rows : List (List String)) (hne : columns ≠ [])
    (harity : ∀ row ∈ rows, row.length = columns.length)
    (htexts : ∀ texts ∈ columns :: rows, ∀ text ∈ texts, '\n' ∉ text.toList) :
    ∃ edges separator header body, Shows columns rows edges separator header body ∧
      draw columns rows = [separator, header, separator] ++ body ++
        (if rows.isEmpty then [] else [separator]) ++ [countLine rows] ∧
      splitAt '\n' (printed columns rows) = (draw columns rows).map String.toList ++ [[]] := by
  refine ⟨_, _, _, _, shows_widths hne harity, rfl, splitAt_endLines ?_⟩
  rw [List.forall_mem_map]
  exact newline_notMem_draw harity htexts

/-- A name and fields with marks in them, an empty field, and a name with an odd blank. -/
theorem draw_aligned_marks :
    let columns := ["id", "a|b"]
    let rows := [["10", ""], ["7", "+é|+"]]
    draw columns rows = ["+----+------+", "| id | a|b  |", "+----+------+", "| 10 |      |",
      "| 7  | +é|+ |", "+----+------+", "2 row(s) returned"] ∧
      ∃ edges separator header body, Shows columns rows edges separator header body ∧
        draw columns rows = [separator, header, separator] ++ body ++ [separator] ++
          [countLine rows] := by
  intro columns rows
  obtain ⟨edges, separator, header, body, shows, hdraw, -⟩ :=
    draw_aligned columns rows (by decide) (by decide) (by decide)
  exact ⟨by decide +kernel, edges, separator, header, body, shows, hdraw⟩

end Draw

end TableStore.Grid
