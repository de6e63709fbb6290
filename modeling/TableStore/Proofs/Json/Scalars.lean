import TableStore.Json.Printer
import TableStore.Json.Reader
import TableStore.Proofs.Outcome
import TableStore.Proofs.Text.Runs

/-! Strings and integers in JSON text: what was printed is read back, whatever follows. -/
namespace TableStore.Json

section Strings

variable {c d : Char} {rest after : List Char}

theorem stringRest_quote (rest : List Char) : stringRest ('"' :: rest) = .ok ([], rest) := by
  rw [stringRest, if_pos rfl]

theorem stringRest_escape (h : escape rest = .ok (d, after)) :
    stringRest ('\\' :: rest) = (stringRest after).map fun (s, after) => (d :: s, after) := by
  rw [stringRest, if_neg (by decide), if_pos rfl]
  split
  · next he =>
    rw [h] at he
    cases he
  · next he =>
    rw [h] at he
    cases he
    rfl

theorem stringRest_plain (hq : c ≠ '"') (hb : c ≠ '\\') (hc : ¬c.toNat < 0x20) :
    stringRest (c :: rest) = (stringRest rest).map fun (s, after) => (c :: s, after) := by
  rw [stringRest, if_neg hq, if_neg hb, if_neg hc]

theorem hexValue?_digitChar {n : Nat} (h : n < 16) : hexValue? (Nat.digitChar n) = some n := by
  have all : ∀ k : Fin 16, hexValue? (Nat.digitChar k) = some k := by decide
  exact all ⟨n, h⟩

theorem escape_control (h : c.toNat < 0x20) (rest : List Char) :
    escape ('u' :: '0' :: '0' :: Nat.digitChar (c.toNat / 16) :: Nat.digitChar (c.toNat % 16) ::
      rest) = .ok (c, rest) := by
  have zero : hexValue? '0' = some 0 := by decide
  have high : hexValue? (Nat.digitChar (c.toNat / 16)) = some (c.toNat / 16) :=
    hexValue?_digitChar (by omega)
  have low : hexValue? (Nat.digitChar (c.toNat % 16)) = some (c.toNat % 16) :=
    hexValue?_digitChar (by omega)
  have number : ((0 * 16 + 0) * 16 + c.toNat / 16) * 16 + c.toNat % 16 = c.toNat := by omega
  have direct : c.toNat < 0xD800 ∨ 0xDFFF < c.toNat := by omega
  simp only [escape, unicode, hexEscape, zero, high, low, Outcome.ok_bind, number, if_pos direct,
    Char.ofNat_toNat]
  rfl

theorem stringRest_stringChar (c : Char) (rest : List Char) :
    stringRest (stringChar c ++ rest) =
      (stringRest rest).map fun (s, after) => (c :: s, after) := by
  unfold stringChar
  -- Seven characters have an escape of their own.
  iterate 7
    split
    · next h =>
      subst h
      exact stringRest_escape rfl
  split
  · next h => exact stringRest_escape (escape_control h rest)
  · next hq hb _ _ _ _ _ hc =>
    exact stringRest_plain hq hb hc

theorem stringRest_flatMap (s rest : List Char) :
    stringRest (s.flatMap stringChar ++ '"' :: rest) = .ok (s, rest) := by
  induction s with
  | nil => exact stringRest_quote rest
  | cons c s ih =>
    rw [List.flatMap_cons, List.append_assoc, stringRest_stringChar, ih]
    rfl

end Strings

section Integers

variable {n : Nat} {whole rest : List Char}

/-- Text with which no number goes on. -/
def EndsNumber (rest : List Char) : Prop :=
  ∀ c ∈ rest.head?, c.isDigit = false ∧ c ∉ ['.', 'e', 'E']

theorem le_ofDigitChars (n : Nat) (ds : List Char) : n ≤ Nat.ofDigitChars 10 ds n := by
  induction ds generalizing n with
  | nil => exact Nat.le_refl n
  | cons d ds ih =>
    refine Nat.le_trans ?_ (ih (10 * n + (d.toNat - '0'.toNat)))
    omega

theorem appendDigits_eq (n : Nat) {ds : List Char} (h : Nat.ofDigitChars 10 ds n < Nat.pow 2 64) :
    appendDigits n ds = (Nat.ofDigitChars 10 ds n, 0) := by
  induction ds generalizing n with
  | nil => rfl
  | cons d ds ih =>
    have fits : 10 * n + (d.toNat - '0'.toNat) < Nat.pow 2 64 :=
      Nat.lt_of_le_of_lt (le_ofDigitChars _ ds) h
    have step : appendDigits n (d :: ds) = appendDigits (10 * n + (d.toNat - '0'.toNat)) ds :=
      if_pos fits
    rw [step]
    exact ih _ h

theorem digitChar_ne_zero {k : Nat} (hk : 0 < k) (h : k < 10) : Nat.digitChar k ≠ '0' := by
  have all : ∀ k : Fin 10, 0 < k → Nat.digitChar k ≠ '0' := by decide
  exact all ⟨k, h⟩ hk

/-- Digits are written without zeros at the front. -/
theorem toDigits_eq_cons (h : 0 < n) :
    ∃ d ds, Nat.toDigits 10 n = d :: ds ∧ d ≠ '0' := by
  induction n using Nat.strongRecOn with
  | ind n ih =>
    rw [Nat.toDigits_eq_if (by decide)]
    split
    · next hn => exact ⟨_, [], rfl, digitChar_ne_zero h hn⟩
    · next hn =>
      obtain ⟨d, ds, hd, hne⟩ := ih (n / 10) (by omega) (by omega)
      exact ⟨d, _, by rw [hd, List.cons_append], hne⟩

theorem numberRest_whole (negative : Bool) (whole : List Char) (h : EndsNumber rest) :
    numberRest negative whole rest = numberOf negative whole [] none rest := by
  cases rest with
  | nil => rfl
  | cons c rest =>
    obtain ⟨-, hc⟩ := h c rfl
    simp only [List.mem_cons, List.not_mem_nil, or_false, not_or] at hc
    obtain ⟨hpoint, hsmall, hlarge⟩ := hc
    simp [numberRest, hpoint, hsmall, hlarge, Outcome.ok_bind]

theorem unsignedNumber_toDigits (negative : Bool) (n : Nat) (h : EndsNumber rest) :
    unsignedNumber negative (Nat.toDigits 10 n ++ rest) =
      numberOf negative (Nat.toDigits 10 n) [] none rest := by
  have noDigit : ∀ c ∈ rest.head?, c.isDigit = false := fun c hc => (h c hc).1
  rcases Nat.eq_zero_or_pos n with rfl | hn
  · rw [Nat.toDigits_zero, ← numberRest_whole negative _ h]
    cases rest with
    | nil => rfl
    | cons c rest => simp [unsignedNumber, noDigit c rfl]
  · obtain ⟨d, ds, hdigits, hd⟩ := toDigits_eq_cons hn
    have digits : ∀ c ∈ d :: ds, c.isDigit = true := fun c hc =>
      Nat.isDigit_of_mem_toDigits (by decide) (by decide) (hdigits ▸ hc)
    rw [List.forall_mem_cons] at digits
    rw [hdigits, ← numberRest_whole negative _ h]
    simp only [List.cons_append, unsignedNumber, if_neg hd, digits.1, if_true,
      Text.takeWhile_append_stop digits.2 noDigit, Text.dropWhile_append_stop digits.2 noDigit]

theorem numberOf_toDigits {negative : Bool} (hn : n < Nat.pow 2 64)
    (exact : isExact negative n = true) (rest : List Char) :
    numberOf negative (Nat.toDigits 10 n) [] none rest =
      .ok (.integer (if negative then -(n : Int) else n), rest) := by
  have value : Nat.ofDigitChars 10 (Nat.toDigits 10 n) 0 = n :=
    Nat.ofDigitChars_toDigits (by decide) (by decide)
  have digits : appendDigits 0 (Nat.toDigits 10 n) = (n, 0) := by
    rw [appendDigits_eq 0 (by rwa [value]), value]
  unfold numberOf
  rw [digits]
  simp [exact]

end Integers

end TableStore.Json
