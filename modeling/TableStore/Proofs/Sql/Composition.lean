import TableStore.Proofs.Sql.Spelled

/-! Texts with a known beginning. What stands after it is scanned as if it stood alone, also
where it cannot be cut into tokens; and a last token can be taken out of a text. -/
namespace TableStore.Sql

open TableStore.Text

namespace Token

variable {pos : Nat} {gap front back rest rest' : List Char} {t : Token} {us : List Spanned}

theorem scanFrom_gap_append (hgap : ∀ c ∈ gap, isBlank c = true) :
    scanFrom pos (gap ++ back) = scanFrom (pos + gap.length) back := by
  have drops : (gap ++ back).dropWhile isBlank = back.dropWhile isBlank :=
    List.dropWhile_append_of_pos hgap
  have takes : pos + ((gap ++ back).takeWhile isBlank).length =
      pos + gap.length + (back.takeWhile isBlank).length := by
    rw [List.takeWhile_append_of_pos hgap, List.length_append, Nat.add_assoc]
  cases hc : back.dropWhile isBlank with
  | nil =>
    rw [scanFrom_of_dropWhile_eq_nil hc, scanFrom_of_dropWhile_eq_nil (drops.trans hc),
      List.length_append, Nat.add_assoc]
  | cons c rest => rw [scanFrom_cons hc, scanFrom_cons (drops.trans hc), takes]

theorem scanFrom_token_append (ends : t.Ends back) : scanFrom pos (t.spelling ++ back) =
    (scanFrom (pos + t.spelling.length) back).map
      (⟨t, pos, pos + t.spelling.length⟩ :: ·) := by
  obtain ⟨c, cs, hc, hb⟩ := spelling_eq_cons ends
  have drops : (t.spelling ++ back).dropWhile isBlank = c :: (cs ++ back) := by
    rw [hc, List.cons_append, List.dropWhile_cons_of_neg (by simp [hb])]
  have takes : (t.spelling ++ back).takeWhile isBlank = [] := by
    rw [hc, List.cons_append, List.takeWhile_cons_of_neg (by simp [hb])]
  have read (start : Nat) : next start c (cs ++ back) = .ok (t, back) :=
    (next_eq_ok hb).mpr ⟨by rw [hc, List.cons_append], ends⟩
  rw [scanFrom_of_next drops (read _), takes]
  rfl

/-- What follows a tiled text is scanned after it, whatever it is. -/
theorem scanFrom_append (h : Tiles back pos front us) : scanFrom pos (front ++ back) =
    (scanFrom (pos + front.length) back).map (us ++ ·) := by
  induction h with
  | gap blank =>
    rw [scanFrom_gap_append blank]
    cases scanFrom _ back <;> rfl
  | @token pos gap t more ts blank ends tail ih =>
    have order : gap ++ (t.spelling ++ more) ++ back = gap ++ (t.spelling ++ (more ++ back)) := by
      simp
    have stop : pos + (gap ++ (t.spelling ++ more)).length =
        pos + gap.length + t.spelling.length + more.length := by
      simp [Nat.add_assoc]
    rw [order, scanFrom_gap_append blank, scanFrom_token_append ends, ih, stop]
    cases scanFrom _ back <;> rfl

theorem Ends.nil (h : t.Ends rest) : t.Ends [] := by
  cases t with
  | operator op =>
    cases op with
    | lt | gt => nofun
    | _ => trivial
  | word w => exact ⟨h.1, h.2.1, nofun⟩
  | quoted s => nofun
  | endOfText => exact h
  | _ => trivial

/-- A token ends before blanks and at the end of a text, wherever else it ends. -/
theorem Ends.before_blank (h : t.Ends rest) (hr : ∀ c ∈ rest'.head?, isBlank c = true) :
    t.Ends rest' := by
  cases rest' with
  | nil => exact h.nil
  | cons c rest' => exact h.blank (hr c rfl) rfl

end Token

namespace Tiles

variable {rest rest' cs : List Char} {pos : Nat} {ts : List Spanned} {u : Spanned} {w : String}

theorem before_blank (h : Tiles rest pos cs ts) (hr : ∀ c ∈ rest'.head?, isBlank c = true) :
    Tiles rest' pos cs ts := by
  induction h with
  | gap blank => exact .gap blank
  | @token pos gap t more ts blank ends tail ih =>
    refine .token blank ?_ ih
    cases more with
    | nil => exact ends.before_blank hr
    | cons c more => exact ends.congr rfl

/-- Without its last token a text is tiled by the tokens before it. -/
theorem without_last (h : Tiles [] 0 cs (ts ++ [u])) :
    Tiles [] 0 (cs.take u.start ++ cs.drop u.stop) ts := by
  obtain ⟨front, back, rfl, hstart, hstop, -, hfront, ⟨blank⟩⟩ := append_cons_iff.mp h
  rw [Nat.zero_add] at hstart
  have before : (front ++ (u.token.spelling ++ back)).take u.start = front := by
    rw [hstart, List.take_left]
  have after : (front ++ (u.token.spelling ++ back)).drop u.stop = back := by
    rw [hstop, hstart, ← List.append_assoc, ← List.length_append, List.drop_left]
  have head : ∀ c ∈ (back ++ []).head?, isBlank c = true := by
    rw [List.append_nil]
    exact fun c hc => blank c (List.mem_of_mem_head? hc)
  rw [before, after, ← List.append_nil ts]
  exact append (hfront.before_blank head) (.gap blank)

theorem isWord (h : Tiles rest pos cs ts) (hu : u ∈ ts) (hw : u.token = .word w) : IsWord w := by
  induction h with
  | gap blank => cases hu
  | token blank ends tail ih =>
    rcases List.mem_cons.mp hu with rfl | hu
    · obtain rfl := hw
      exact ⟨ends.1, ends.2.1⟩
    · exact ih hu

end Tiles

/-- The words among the tokens of a text. -/
theorem Token.isWord_of_scan {text : String} {ts : List Spanned} {u : Spanned} {w : String}
    (h : scan text = .ok ts) (hu : u ∈ ts) (hw : u.token = .word w) : IsWord w := by
  obtain ⟨us, tiles, rfl⟩ := scan_eq_ok.mp h
  rcases List.mem_append.mp hu with hu | hu
  · exact tiles.isWord hu hw
  · obtain rfl := List.mem_singleton.mp hu
    cases hw

namespace Spelled

variable {text : String} {front back : List Char} {as ts ts' : List Token} {w : String}

theorem iff_scan : Spelled [] text.toList ts ↔
    ∃ us, Token.scan text = .ok us ∧ us.map Spanned.token = ts ++ [.endOfText] := by
  constructor
  · intro h
    obtain ⟨us, hscan, -, rfl⟩ := h.scan
    exact ⟨_, hscan, List.map_append⟩
  · rintro ⟨us, hscan, hmap⟩ pos
    obtain ⟨vs, tiles, rfl⟩ := Token.scan_eq_ok.mp hscan
    rw [List.map_append] at hmap
    obtain ⟨rfl, -⟩ := List.append_inj' hmap rfl
    exact tiles.shift pos

/-- A text consists of one list of tokens at most. -/
theorem unique (h : Spelled [] text.toList ts) (h' : Spelled [] text.toList ts') : ts = ts' := by
  obtain ⟨us, hscan, hmap⟩ := iff_scan.mp h
  obtain ⟨us', hscan', hmap'⟩ := iff_scan.mp h'
  obtain rfl := Except.ok.inj (hscan.symm.trans hscan')
  exact List.append_cancel_right (hmap.symm.trans hmap')

/-- After a known beginning stand the tokens of what follows it. -/
theorem append_iff (h : Spelled back front as) : Spelled [] (front ++ back) ts ↔
    ∃ bs, ts = as ++ bs ∧ Spelled [] back bs := by
  constructor
  · intro whole
    obtain ⟨us, tiles, rfl⟩ := whole 0
    obtain ⟨vs, before, rfl⟩ := h 0
    have scanned := Token.scanFrom_eq_ok.mpr ⟨us, tiles, rfl⟩
    rw [Token.scanFrom_append before] at scanned
    obtain ⟨_, after, joined⟩ := Outcome.map_eq_ok.mp scanned
    obtain ⟨ws, tiled, rfl⟩ := Token.scanFrom_eq_ok.mp after
    rw [← List.append_assoc] at joined
    obtain ⟨rfl, -⟩ := List.append_inj' joined rfl
    exact ⟨ws.map Spanned.token, List.map_append, fun pos => tiled.shift pos⟩
  · rintro ⟨bs, rfl, after⟩
    exact append (by rwa [List.append_nil]) after

end Spelled

end TableStore.Sql
