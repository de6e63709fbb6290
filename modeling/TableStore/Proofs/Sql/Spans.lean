import TableStore.Proofs.Sql.Tiling

/-! Tokens by their positions. A text is accepted exactly if its tokens stand in their spans, in
order, with nothing but blanks outside; the text is the blanks and the tokens in turn. -/
namespace TableStore.Sql

open TableStore.Text

section Slice

variable {cs : List Char} {start stop i : Nat} {c : Char}

theorem mem_slice : c ∈ slice cs start stop ↔ ∃ i, start ≤ i ∧ i < stop ∧ cs[i]? = some c := by
  unfold slice
  simp only [List.mem_iff_getElem?, List.getElem?_take, List.getElem?_drop]
  constructor
  · rintro ⟨i, h⟩
    split at h
    · exact ⟨start + i, Nat.le_add_right _ _, by omega, h⟩
    · cases h
  · rintro ⟨i, hstart, hstop, hi⟩
    refine ⟨i - start, ?_⟩
    rw [if_pos (by omega), Nat.add_sub_cancel' hstart]
    exact hi

theorem drop_eq_slice_append (cs : List Char) (h : start ≤ stop) :
    cs.drop start = slice cs start stop ++ cs.drop stop := by
  have hdrop : (cs.drop start).drop (stop - start) = cs.drop stop := by
    rw [List.drop_drop, Nat.add_sub_cancel' h]
  rw [slice, ← hdrop, List.take_append_drop]

theorem length_slice (h : stop ≤ cs.length) : (slice cs start stop).length = stop - start := by
  rw [slice, List.length_take, List.length_drop]
  omega

/-- Two pieces that stand after a position are the slices between the ends of the pieces. -/
theorem slices_of_drop_eq {gap piece more : List Char} {pos : Nat} (hpos : pos ≤ cs.length)
    (h : cs.drop pos = gap ++ (piece ++ more)) (hstart : start = pos + gap.length)
    (hstop : stop = start + piece.length) :
    slice cs pos start = gap ∧ slice cs start stop = piece ∧ cs.drop stop = more ∧
      stop ≤ cs.length := by
  have hdrop : cs.drop start = piece ++ more := by
    rw [hstart, ← List.drop_drop, h, List.drop_left]
  have hlength := congrArg List.length h
  simp only [List.length_drop, List.length_append] at hlength
  refine ⟨?_, ?_, ?_, by omega⟩
  · rw [slice, h, List.take_left' (by omega)]
  · rw [slice, hdrop, List.take_left' (by omega)]
  · rw [hstop, ← List.drop_drop, hdrop, List.drop_left]

end Slice

/-- What a token says about the characters in its span and the one after it: a word goes as far
as it can, a quoted text has its quotes doubled, and no symbol begins a longer one. -/
def Spanned.Reads (cs : List Char) (u : Spanned) : Prop :=
  match u.token with
  | .word w => slice cs u.start u.stop = w.toList ∧ w.toList ≠ [] ∧
      (∀ c ∈ w.toList, Token.isDelimiter c = false) ∧
      ∀ c, cs[u.stop]? = some c → Token.isDelimiter c = true
  | .quoted s => slice cs u.start u.stop = quote s.toList ∧ cs[u.stop]? ≠ some quoteMark
  | .operator op => slice cs u.start u.stop = op.symbol.toList ∧
      (op = .lt ∨ op = .gt → cs[u.stop]? ≠ some '=')
  | .endOfText => False
  | symbol => slice cs u.start u.stop = symbol.text.toList

/-- From a position on, the text is made of these tokens, each in its span, one after another,
and of blanks outside the spans. -/
structure Laid (cs : List Char) (pos : Nat) (ts : List Spanned) : Prop where
  ordered : ts.Pairwise fun u v => u.stop ≤ v.start
  after : ∀ u ∈ ts, pos ≤ u.start
  nonempty : ∀ u ∈ ts, u.start < u.stop
  within : ∀ u ∈ ts, u.stop ≤ cs.length
  reads : ∀ u ∈ ts, u.Reads cs
  blank : ∀ i c, pos ≤ i → cs[i]? = some c → (∀ u ∈ ts, i < u.start ∨ u.stop ≤ i) →
    isBlank c = true

/-- What stands from a position on before the first token, between two tokens, and after the
last one. -/
def gaps (cs : List Char) (pos : Nat) : List Spanned → List (List Char)
  | [] => [cs.drop pos]
  | u :: us => slice cs pos u.start :: gaps cs u.stop us

/-- Gaps and tokens in turn. -/
def weave : List (List Char) → List Token → List Char
  | gap :: gaps, t :: ts => gap ++ (t.spelling ++ weave gaps ts)
  | gaps, _ => gaps.flatten

variable {cs : List Char} {pos : Nat} {u : Spanned} {us : List Spanned}

theorem Tiles.nil_iff {rest : List Char} :
    Tiles rest pos cs [] ↔ ∀ c ∈ cs, isBlank c = true := by
  constructor
  · rintro ⟨blank⟩
    exact blank
  · exact .gap

theorem Spanned.reads_iff : u.Reads cs ↔
    slice cs u.start u.stop = u.token.spelling ∧ u.token.Ends (cs.drop u.stop) := by
  unfold Reads
  cases h : u.token with
  | operator op => cases op <;> simp [Token.spelling, Token.text, Token.Ends]
  | _ => simp [Token.spelling, Token.text, Token.Ends]

theorem Spanned.Reads.ne_endOfText (h : u.Reads cs) : u.token ≠ .endOfText := by
  intro hu
  unfold Reads at h
  rw [hu] at h
  exact h

namespace Laid

theorem nil_iff : Laid cs pos [] ↔ ∀ c ∈ cs.drop pos, isBlank c = true := by
  simp only [List.mem_iff_getElem?, List.getElem?_drop]
  constructor
  · rintro h c ⟨i, hi⟩
    exact h.blank _ c (Nat.le_add_right _ _) hi (List.forall_mem_nil _)
  · intro h
    refine ⟨.nil, List.forall_mem_nil _, List.forall_mem_nil _, List.forall_mem_nil _,
      List.forall_mem_nil _, fun i c hpos hi _ => h c ⟨i - pos, ?_⟩⟩
    rw [Nat.add_sub_cancel' hpos]
    exact hi

theorem cons_iff : Laid cs pos (u :: us) ↔ pos ≤ u.start ∧ u.start < u.stop ∧
    u.stop ≤ cs.length ∧ u.Reads cs ∧ (∀ c ∈ slice cs pos u.start, isBlank c = true) ∧
    Laid cs u.stop us := by
  constructor
  · rintro ⟨ordered, after, nonempty, within, reads, blank⟩
    rw [List.forall_mem_cons] at after nonempty within reads
    rw [List.pairwise_cons] at ordered
    refine ⟨after.1, nonempty.1, within.1, reads.1, fun c hc => ?_, ordered.2, ordered.1,
      nonempty.2, within.2, reads.2, fun i c hi hc outside => ?_⟩
    · obtain ⟨i, hpos, hi, hc⟩ := mem_slice.mp hc
      refine blank i c hpos hc (List.forall_mem_cons.mpr ⟨.inl hi, fun v hv => .inl ?_⟩)
      have := ordered.1 v hv
      have := nonempty.1
      omega
    · refine blank i c ?_ hc (List.forall_mem_cons.mpr ⟨.inr hi, outside⟩)
      have := after.1
      have := nonempty.1
      omega
  · rintro ⟨hstart, hlt, hstop, hreads, hgap, tail⟩
    refine ⟨List.pairwise_cons.mpr ⟨tail.after, tail.ordered⟩,
      List.forall_mem_cons.mpr ⟨hstart, fun v hv => ?_⟩,
      List.forall_mem_cons.mpr ⟨hlt, tail.nonempty⟩,
      List.forall_mem_cons.mpr ⟨hstop, tail.within⟩,
      List.forall_mem_cons.mpr ⟨hreads, tail.reads⟩, fun i c hpos hc outside => ?_⟩
    · have := tail.after v hv
      omega
    · obtain ⟨hi, outside⟩ := List.forall_mem_cons.mp outside
      rcases hi with hi | hi
      · exact hgap c (mem_slice.mpr ⟨i, hpos, hi, hc⟩)
      · exact tail.blank i c hi hc outside

/-- Tokens and blanks tile what follows a position exactly if they stand there in their spans. -/
theorem iff_tiles (hpos : pos ≤ cs.length) : Laid cs pos us ↔ Tiles [] pos (cs.drop pos) us := by
  induction us generalizing pos with
  | nil =>
    rw [nil_iff, Tiles.nil_iff]
  | cons u us ih =>
    rw [cons_iff]
    constructor
    · rintro ⟨hstart, hlt, hstop, hreads, hgap, tail⟩
      obtain ⟨hslice, hends⟩ := Spanned.reads_iff.mp hreads
      have hcs : cs.drop pos =
          slice cs pos u.start ++ (u.token.spelling ++ cs.drop u.stop) := by
        rw [drop_eq_slice_append cs hstart, drop_eq_slice_append cs (Nat.le_of_lt hlt), hslice]
      refine Tiles.cons hcs hgap ?_ ?_ ?_ ((ih hstop).mp tail)
      · rwa [List.append_nil]
      · rw [length_slice (by omega), Nat.add_sub_cancel' hstart]
      · rw [← hslice, length_slice hstop, Nat.add_sub_cancel' (Nat.le_of_lt hlt)]
    · intro h
      obtain ⟨gap, more, hcs, hstart, hstop, hends, hgap, htail⟩ :=
        Tiles.append_cons_iff.mp (show Tiles [] pos (cs.drop pos) ([] ++ u :: us) from h)
      rw [List.append_nil] at hends
      obtain ⟨c, rest, hspelling, -⟩ := Token.spelling_eq_cons hends
      have hpositive : 0 < u.token.spelling.length := by
        rw [hspelling]
        exact Nat.succ_pos _
      obtain ⟨hgapSlice, hslice, hdrop, hstopLe⟩ := slices_of_drop_eq hpos hcs hstart hstop
      refine ⟨by omega, by omega, hstopLe, ?_, ?_, (ih hstopLe).mpr ?_⟩
      · exact Spanned.reads_iff.mpr ⟨hslice, by rwa [hdrop]⟩
      · rw [hgapSlice]
        exact Tiles.nil_iff.mp hgap
      · rwa [hdrop]

theorem blank_of_mem_gaps (h : Laid cs pos us) :
    ∀ gap ∈ gaps cs pos us, ∀ c ∈ gap, isBlank c = true := by
  induction us generalizing pos with
  | nil =>
    rw [gaps, List.forall_mem_singleton]
    exact nil_iff.mp h
  | cons u us ih =>
    obtain ⟨-, -, -, -, hgap, tail⟩ := cons_iff.mp h
    rw [gaps, List.forall_mem_cons]
    exact ⟨hgap, ih tail⟩

theorem weave_gaps (h : Laid cs pos us) :
    weave (gaps cs pos us) (us.map Spanned.token) = cs.drop pos := by
  induction us generalizing pos with
  | nil => simp [gaps, weave]
  | cons u us ih =>
    obtain ⟨hstart, hlt, -, hreads, -, tail⟩ := cons_iff.mp h
    rw [gaps, List.map_cons, weave, ih tail, ← (Spanned.reads_iff.mp hreads).1,
      ← drop_eq_slice_append cs (Nat.le_of_lt hlt), ← drop_eq_slice_append cs hstart]

end Laid

/-- A text is accepted with some tokens exactly if the last one is its end and the others stand
in their spans, with blanks outside; the text is then the gaps and the tokens in turn. -/
theorem Token.scan_eq_ok_iff_laid (text : String) (ts : List Spanned) :
    scan text = .ok ts ↔ ∃ us, ts = us ++ [.last text.toList.length] ∧
      Laid text.toList 0 us ∧ (∀ u ∈ us, u.token ≠ .endOfText) ∧
      (∀ gap ∈ gaps text.toList 0 us, ∀ c ∈ gap, isBlank c = true) ∧
      weave (gaps text.toList 0 us) (us.map Spanned.token) = text.toList := by
  rw [scan_eq_ok]
  have hlaid (us : List Spanned) : Tiles [] 0 text.toList us ↔ Laid text.toList 0 us :=
    (Laid.iff_tiles (Nat.zero_le _)).symm
  constructor
  · rintro ⟨us, htiles, rfl⟩
    have h := (hlaid us).mp htiles
    exact ⟨us, rfl, h, fun u hu => (h.reads u hu).ne_endOfText, h.blank_of_mem_gaps,
      h.weave_gaps⟩
  · rintro ⟨us, rfl, h, -⟩
    exact ⟨us, (hlaid us).mpr h, rfl⟩

end TableStore.Sql
