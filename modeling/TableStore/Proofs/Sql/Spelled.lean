import TableStore.Text.Separated
import TableStore.Proofs.Sql.Statement
import TableStore.Proofs.Sql.Group

/-! Texts written token by token: what such a text consists of, wherever it stands. -/
namespace TableStore.Sql

open TableStore.Text

/-- Before `rest` a text consists of these tokens. -/
def Spelled (rest cs : List Char) (tokens : List Token) : Prop :=
  ∀ pos, ∃ us, Tiles rest pos cs us ∧ us.map Spanned.token = tokens

/-- A name that is one word of a statement. -/
def IsWord (name : String) : Prop :=
  name.toList ≠ [] ∧ ∀ c ∈ name.toList, Token.isDelimiter c = false

instance (name : String) : Decidable (IsWord name) :=
  decidable_of_iff (name.toList ≠ [] ∧ name.toList.all (!Token.isDelimiter ·) = true)
    (and_congr_right' (by simp))

/-- The characters of names have numbers between those of blanks and of delimiters. -/
theorem IsName.isWord {name : String} (h : IsName name) : IsWord name := by
  refine ⟨h.1, fun c hc => ?_⟩
  have range : (48 ≤ c.toNat ∧ c.toNat ≤ 57) ∨ (65 ≤ c.toNat ∧ c.toNat ≤ 90) ∨
      c.toNat = 95 ∨ (97 ≤ c.toNat ∧ c.toNat ≤ 122) := by
    rcases h.2 c hc with ha | rfl
    · delta Char.isAlphanum Char.isAlpha Char.isUpper Char.isLower Char.isDigit at ha
      simp only [Bool.or_eq_true, Bool.and_eq_true, decide_eq_true_eq, UInt32.le_iff_toNat_le,
        ge_iff_le] at ha
      change ((65 ≤ c.toNat ∧ c.toNat ≤ 90) ∨ (97 ≤ c.toNat ∧ c.toNat ≤ 122)) ∨
        (48 ≤ c.toNat ∧ c.toNat ≤ 57) at ha
      omega
    · decide
  rw [Token.isDelimiter_eq_false]
  constructor
  · simp only [isBlank, Bool.or_eq_false_iff, Bool.and_eq_false_iff, decide_eq_false_iff_not,
      beq_eq_false_iff_ne]
    omega
  · intro hm
    simp only [List.mem_cons, List.not_mem_nil, or_false] at hm
    rcases hm with rfl | rfl | rfl | rfl | rfl | rfl | rfl | rfl | rfl <;> revert range <;> decide

namespace Tiles

variable {rest front back : List Char} {pos : Nat} {ts us : List Spanned}

theorem gap_append {gap : List Char} (hgap : ∀ c ∈ gap, isBlank c = true)
    (h : Tiles rest (pos + gap.length) back us) : Tiles rest pos (gap ++ back) us := by
  cases h with
  | gap blank =>
    apply Tiles.gap
    rw [List.forall_mem_append]
    exact ⟨hgap, blank⟩
  | @token _ gap' t more _ blank ends tail =>
    refine .cons (List.append_assoc ..).symm ?_ ends ?_ rfl tail
    · rw [List.forall_mem_append]
      exact ⟨hgap, blank⟩
    · rw [List.length_append, Nat.add_assoc]

theorem append (hfront : Tiles (back ++ rest) pos front ts)
    (hback : Tiles rest (pos + front.length) back us) :
    Tiles rest pos (front ++ back) (ts ++ us) := by
  induction hfront with
  | gap blank => exact gap_append blank hback
  | @token pos gap t more ts blank ends tail ih =>
    refine .cons (by simp) blank ?_ rfl rfl (ih ?_)
    · rwa [List.append_assoc]
    · simpa [Nat.add_assoc] using hback

end Tiles

namespace Spelled

variable {rest front back cs : List Char} {as bs ts : List Token} {t : Token} {c : Char}

theorem nil (rest : List Char) : Spelled rest [] [] :=
  fun _ => ⟨[], .gap nofun, rfl⟩

theorem append (hfront : Spelled (back ++ rest) front as) (hback : Spelled rest back bs) :
    Spelled rest (front ++ back) (as ++ bs) := by
  intro pos
  obtain ⟨us, hus, rfl⟩ := hfront pos
  obtain ⟨vs, hvs, rfl⟩ := hback (pos + front.length)
  exact ⟨us ++ vs, hus.append hvs, List.map_append⟩

theorem token (ends : t.Ends (cs ++ rest)) (h : Spelled rest cs ts) :
    Spelled rest (t.spelling ++ cs) (t :: ts) := by
  intro pos
  obtain ⟨us, hus, rfl⟩ := h (pos + t.spelling.length)
  have noGap : t.spelling ++ cs = [] ++ (t.spelling ++ cs) := rfl
  exact ⟨_, .cons noGap nofun ends rfl rfl hus, rfl⟩

theorem single (ends : t.Ends rest) : Spelled rest t.spelling [t] := by
  have := token (by rwa [List.nil_append]) (nil rest)
  rwa [List.append_nil] at this

theorem blank (hc : isBlank c = true) (h : Spelled rest cs ts) : Spelled rest (c :: cs) ts := by
  intro pos
  obtain ⟨us, hus, rfl⟩ := h (pos + 1)
  have hgap : ∀ d ∈ [c], isBlank d = true := by simpa using hc
  exact ⟨us, Tiles.gap_append hgap hus, rfl⟩

theorem word {w : String} (hw : IsWord w) (h : Spelled rest cs ts) :
    Spelled rest (w.toList ++ ' ' :: cs) (.word w :: ts) := by
  refine token (t := .word w) ⟨hw.1, hw.2, ?_⟩ (blank (by decide) h)
  rintro c ⟨⟩
  decide

theorem scan {text : String} (h : Spelled [] text.toList ts) : ∃ us,
    Token.scan text = .ok (us ++ [.last text.toList.length]) ∧ Tiles [] 0 text.toList us ∧
      us.map Spanned.token = ts := by
  obtain ⟨us, hus, hmap⟩ := h 0
  exact ⟨us, Token.scan_eq_ok.mpr ⟨us, hus, rfl⟩, hus, hmap⟩

theorem read {text : String} {s : Statement} (h : Spelled [] text.toList ts)
    (hs : ∀ us, Tiles [] 0 text.toList us → us.map Spanned.token = ts →
      Production text.toList us s) : Statement.read text = .ok s := by
  obtain ⟨us, hscan, htiles, hmap⟩ := h.scan
  exact Statement.read_eq_ok.mpr ⟨us, _, hscan, .inl rfl, hs us htiles hmap⟩

/-- Items with a comma and a blank between them, each of which is followed by a comma or by
what follows the list. -/
theorem list {α : Type} {items : List α} {text : α → List Char} {tokens : α → List Token}
    (hne : items ≠ [])
    (h : ∀ item ∈ items, ∀ more, more.head? = some ',' ∨ more = rest →
      Spelled more (text item) (tokens item)) :
    Spelled rest ([',', ' '].intercalate (items.map text))
      (joinWith .comma (items.map tokens)) := by
  induction items with
  | nil => exact absurd rfl hne
  | cons item items ih =>
    rw [List.forall_mem_cons] at h
    cases items with
    | nil =>
      rw [List.map_singleton, List.intercalate_singleton]
      exact h.1 rest (.inr rfl)
    | cons next items =>
      have separated : Spelled rest (',' :: ' ' ::
          [',', ' '].intercalate ((next :: items).map text))
          (.comma :: joinWith .comma ((next :: items).map tokens)) :=
        token (t := .comma) trivial (blank (by decide) (ih (by simp) h.2))
      have whole := append (h.1 _ (.inl rfl)) separated
      rw [List.map_cons, List.map_cons, List.intercalate_cons_cons, List.append_assoc]
      exact whole

end Spelled

end TableStore.Sql
