import TableStore.Proofs.Sql.Tiling

/-! The blanks between two tokens separate them and mean nothing else: other blanks in their
place leave the tokens as they are. -/
namespace TableStore.Sql

open TableStore.Text

variable {rest rest' cs : List Char} {pos : Nat} {ts us : List Spanned} {t u : Spanned}

namespace Token

variable {t : Token}

/-- Where a token ends depends on the next character only. -/
theorem Ends.congr (h : t.Ends rest) (hr : rest'.head? = rest.head?) : t.Ends rest' := by
  cases t with
  | operator op => cases op <;> simp only [Ends] at h ⊢ <;> simpa only [hr] using h
  | word w => exact ⟨h.1, h.2.1, by rw [hr]; exact h.2.2⟩
  | quoted s => exact fun hq => h (hr ▸ hq)
  | _ => exact h

theorem Ends.blank (h : t.Ends rest) {c : Char} (hc : isBlank c = true)
    (hr : rest'.head? = some c) : t.Ends rest' := by
  have ne {d : Char} (hd : isBlank d = false) : rest'.head? ≠ some d := by
    rw [hr]
    rintro ⟨⟩
    rw [hc] at hd
    cases hd
  cases t with
  | operator op =>
    cases op with
    | lt | gt => exact ne (by decide)
    | _ => trivial
  | word w =>
    refine ⟨h.1, h.2.1, fun d hd => ?_⟩
    rw [hr] at hd
    cases hd
    simp [isDelimiter, hc]
  | quoted s => exact ne (by decide)
  | endOfText => exact h
  | _ => trivial

end Token

namespace Tiles

theorem congr_rest (h : Tiles rest pos cs ts) (hr : rest'.head? = rest.head?) :
    Tiles rest' pos cs ts := by
  induction h with
  | gap blank => exact .gap blank
  | token blank ends tail ih =>
    refine .token blank (ends.congr ?_) ih
    rw [List.head?_append, List.head?_append, hr]

/-- Tokens that stand elsewhere are the same tokens. -/
theorem shift (h : Tiles rest pos cs ts) (pos' : Nat) : ∃ us, Tiles rest pos' cs us ∧
    us.map Spanned.token = ts.map Spanned.token := by
  induction h generalizing pos' with
  | gap blank => exact ⟨[], .gap blank, rfl⟩
  | token blank ends tail ih =>
    obtain ⟨us, hus, hmap⟩ := ih _
    exact ⟨_, .token blank ends hus, by rw [List.map_cons, List.map_cons, hmap]⟩

theorem le_start (h : Tiles rest pos cs (u :: us)) : pos ≤ u.start := by
  cases h with
  | token blank ends tail => exact Nat.le_add_right ..

/-- Other blanks before the first token. -/
theorem replace_gap {gap : List Char} (h : Tiles rest pos cs (u :: us)) (pos' : Nat)
    (hgap : ∀ c ∈ gap, isBlank c = true) :
    ∃ vs, Tiles rest pos' (gap ++ cs.drop (u.start - pos)) vs ∧
      vs.map Spanned.token = (u :: us).map Spanned.token := by
  cases h with
  | @token _ old t more _ blank ends tail =>
    obtain ⟨vs, hvs, hmap⟩ := tail.shift (pos' + gap.length + t.spelling.length)
    rw [Nat.add_sub_cancel_left, List.drop_left]
    exact ⟨_, .token hgap ends hvs, by rw [List.map_cons, List.map_cons, hmap]⟩

/-- What stands after a token may be replaced, if the token ends there still. -/
theorem replace_after {back : List Char} {vs : List Spanned}
    (h : Tiles [] 0 cs (ts ++ t :: us)) (ends : t.token.Ends back)
    (hback : Tiles [] t.stop back vs) :
    Tiles [] 0 (cs.take t.stop ++ back) (ts ++ t :: vs) := by
  obtain ⟨front, old, rfl, hstart, hstop, -, hfront, -⟩ := append_cons_iff.mp h
  have htake : (front ++ (t.token.spelling ++ old)).take t.stop = front ++ t.token.spelling := by
    rw [← List.append_assoc, List.take_left']
    rw [List.length_append, hstop, hstart, Nat.zero_add]
  have hhead : (t.token.spelling ++ back ++ []).head? = (t.token.spelling ++ old ++ []).head? := by
    obtain ⟨c, cs, hc, -⟩ := Token.spelling_eq_cons ends
    rw [hc]
    rfl
  rw [htake, List.append_assoc]
  exact append_cons_iff.mpr ⟨front, back, rfl, hstart, hstop, by rwa [List.append_nil],
    hfront.congr_rest hhead, hback⟩

end Tiles

namespace Token

/-- Other blanks after a token, where some stand, leave the tokens as they are. -/
theorem scan_replace_gap {text : String} {gap : List Char}
    (h : scan text = .ok (ts ++ t :: u :: us)) (hne : gap ≠ [])
    (hgap : ∀ c ∈ gap, isBlank c = true) :
    ∃ vs, scan (String.ofList
        (text.toList.take t.stop ++ (gap ++ text.toList.drop u.start))) = .ok vs ∧
      vs.map Spanned.token = (ts ++ t :: u :: us).map Spanned.token := by
  obtain ⟨ws, htiles, heq⟩ := scan_eq_ok.mp h
  obtain ⟨c, gap', hc⟩ := List.exists_cons_of_ne_nil hne
  have ends {old back : List Char} (ht : t.token.Ends old) : t.token.Ends (gap ++ back) :=
    ht.blank (hgap c (by simp [hc])) (by rw [hc]; rfl)
  rcases List.eq_nil_or_concat us with rfl | ⟨us, v, rfl⟩
  · -- The second token is the end of the text.
    obtain ⟨rfl, hu⟩ : ts ++ [t] = ws ∧ [u] = [.last text.toList.length] :=
      List.append_inj' (by simpa using heq) rfl
    obtain rfl := List.singleton_inj.mp hu
    obtain ⟨front, back, -, -, -, ht, -⟩ := Tiles.append_cons_iff.mp htiles
    have hblank : ∀ c ∈ gap ++ [], isBlank c = true := by simpa using hgap
    have hnew := htiles.replace_after (ends ht) (.gap hblank)
    have hdrop : text.toList.drop (Spanned.last text.toList.length).start = [] := List.drop_length
    rw [hdrop]
    exact ⟨_, scan_of_tiles hnew, by simp [Spanned.last]⟩
  · obtain ⟨rfl, hv⟩ : ts ++ t :: u :: us = ws ∧ [v] = [.last text.toList.length] :=
      List.append_inj' (by simpa using heq) rfl
    obtain rfl := List.singleton_inj.mp hv
    obtain ⟨front, back, hfront, hstart, hstop, ht, -, hback⟩ := Tiles.append_cons_iff.mp htiles
    obtain ⟨vs, hvs, hmap⟩ := hback.replace_gap t.stop hgap
    have hdrop : back.drop (u.start - t.stop) = text.toList.drop u.start := by
      have hlen : (front ++ t.token.spelling).length = t.stop := by
        rw [List.length_append, hstop, hstart, Nat.zero_add]
      obtain ⟨k, hk⟩ := Nat.exists_eq_add_of_le hback.le_start
      rw [hfront, ← List.append_assoc, hk, ← hlen, List.drop_length_add_append,
        Nat.add_sub_cancel_left]
    have hnew := htiles.replace_after (ends ht) (hdrop ▸ hvs)
    exact ⟨_, scan_of_tiles hnew, by simp [hmap, Spanned.last]⟩

end Token

end TableStore.Sql
