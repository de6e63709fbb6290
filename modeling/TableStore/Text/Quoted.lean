/-! Quoted text: a quote opens and closes it, and a quote inside it is written
twice. Reading gives back what quoting wrote. -/
namespace TableStore.Text

def quoteMark : Char := '\''

def doubleQuotes : List Char → List Char
  | [] => []
  | c :: rest => if c = quoteMark then c :: c :: doubleQuotes rest else c :: doubleQuotes rest

def quote (cs : List Char) : List Char :=
  quoteMark :: doubleQuotes cs ++ [quoteMark]

/-- Reads quoted text after its opening quote, giving the text and what follows
the closing quote; none if no quote closes it. -/
def readQuoted : List Char → Option (List Char × List Char)
  | [] => none
  | [c] => if c = quoteMark then some ([], []) else none
  | c :: d :: rest =>
    if c = quoteMark then
      if d = quoteMark then (readQuoted rest).map fun (text, after) => (quoteMark :: text, after)
      else some ([], d :: rest)
    else (readQuoted (d :: rest)).map fun (text, after) => (c :: text, after)

theorem readQuoted_length {cs text after : List Char} (h : readQuoted cs = some (text, after)) :
    after.length < cs.length := by
  fun_induction readQuoted cs generalizing text after with
  | case1 => simp at h
  | case2 => simp at h; simp [← h.2]
  | case3 => simp at h
  | case4 rest ih =>
    obtain ⟨⟨t, a⟩, hr, he⟩ := Option.map_eq_some_iff.mp h
    cases he
    have := ih hr
    simp only [List.length_cons]
    omega
  | case5 => simp at h; simp [← h.2]
  | case6 c d rest _ ih =>
    obtain ⟨⟨t, a⟩, hr, he⟩ := Option.map_eq_some_iff.mp h
    cases he
    have := ih hr
    simp only [List.length_cons] at this ⊢
    omega

/-- Reading stops right after the closing quote, unless another quote follows. -/
theorem readQuoted_quote (cs : List Char) {after : List Char} (h : after.head? ≠ some quoteMark) :
    readQuoted (doubleQuotes cs ++ quoteMark :: after) = some (cs, after) := by
  induction cs with
  | nil =>
    cases after with
    | nil => simp [doubleQuotes, readQuoted]
    | cons d rest =>
      have hd : d ≠ quoteMark := by simpa using h
      simp [doubleQuotes, readQuoted, hd]
  | cons c rest ih =>
    by_cases hc : c = quoteMark
    · simp [doubleQuotes, readQuoted, hc, ih]
    · cases hr : doubleQuotes rest ++ quoteMark :: after with
      | nil => simp at hr
      | cons d tail =>
        rw [hr] at ih
        simp [doubleQuotes, hc, hr, readQuoted, ih]

theorem readQuoted_eq_some {cs text after : List Char} : readQuoted cs = some (text, after) ↔
    cs = doubleQuotes text ++ quoteMark :: after ∧ after.head? ≠ some quoteMark := by
  constructor
  · intro h
    fun_induction readQuoted cs generalizing text after with
    | case1 => cases h
    | case2 => cases h; simp [doubleQuotes]
    | case3 => cases h
    | case4 rest ih =>
      obtain ⟨⟨t, a⟩, hr, he⟩ := Option.map_eq_some_iff.mp h
      cases he
      obtain ⟨rfl, ha⟩ := ih hr
      simp [doubleQuotes, ha]
    | case5 d rest hd =>
      cases h
      simpa [doubleQuotes] using hd
    | case6 c d rest hc ih =>
      obtain ⟨⟨t, a⟩, hr, he⟩ := Option.map_eq_some_iff.mp h
      cases he
      obtain ⟨heq, ha⟩ := ih hr
      rw [heq]
      simp [doubleQuotes, hc, ha]
  · rintro ⟨rfl, h⟩
    exact readQuoted_quote text h

theorem readQuoted_eq_none {cs : List Char} :
    readQuoted cs = none ↔ ∃ text, cs = doubleQuotes text := by
  constructor
  · intro h
    fun_induction readQuoted cs with
    | case1 => exact ⟨[], rfl⟩
    | case2 => cases h
    | case3 c hc => exact ⟨[c], by simp [doubleQuotes, hc]⟩
    | case4 rest ih =>
      obtain ⟨text, rfl⟩ := ih (Option.map_eq_none_iff.mp h)
      exact ⟨quoteMark :: text, by simp [doubleQuotes]⟩
    | case5 => cases h
    | case6 c d rest hc ih =>
      obtain ⟨text, htext⟩ := ih (Option.map_eq_none_iff.mp h)
      exact ⟨c :: text, by simp [doubleQuotes, hc, htext]⟩
  · rintro ⟨text, rfl⟩
    induction text with
    | nil => rfl
    | cons c text ih =>
      by_cases hc : c = quoteMark
      · simp [doubleQuotes, readQuoted, hc, ih]
      · cases hr : doubleQuotes text with
        | nil => simp [doubleQuotes, readQuoted, hc, hr]
        | cons d rest =>
          rw [hr] at ih
          simp [doubleQuotes, readQuoted, hc, hr, ih]

end TableStore.Text
