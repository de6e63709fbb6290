import TableStore.Json.Shape
import TableStore.Proofs.Json.RoundTrip

/-! Records in JSON text. The members of an object are read one after another, each as the
shape of the field that it names. -/
namespace TableStore.Json

variable {fuel depth : Nat} {first : Bool} {shape : Shape} {d : Datum} {name : String}
  {fields : List (String × Shape)} {found : List (String × Datum)} {cs rest written : List Char}

/-- Wherever the text stands, it is read as a datum of the shape. -/
def Shape.Writes (shape : Shape) (d : Datum) (written : List Char) : Prop :=
  ∀ fuel depth rest, EndsNumber rest →
    datum (fuel + 1) depth shape (written ++ rest) = .ok (d, rest)

theorem stringText_append (s : String) (rest : List Char) :
    stringText s ++ rest = '"' :: (s.toList.flatMap stringChar ++ '"' :: rest) := by
  simp [stringText]

/-- Strings are printed without control characters. -/
theorem ge_of_mem_stringText {s : String} : ∀ c ∈ stringText s, 0x20 ≤ c.toNat := by
  have hex : ∀ k : Fin 16, 0x20 ≤ (Nat.digitChar k).toNat := by decide
  have char (d : Char) : ∀ c ∈ stringChar d, 0x20 ≤ c.toNat := by
    unfold stringChar
    iterate 7
      split
      · exact List.forall_mem_cons.mpr ⟨by decide, List.forall_mem_singleton.mpr (by decide)⟩
    split
    · next hd =>
      have high := hex ⟨d.toNat / 16, by omega⟩
      have low := hex ⟨d.toNat % 16, by omega⟩
      simp only [unicodeEscape, List.forall_mem_cons]
      exact ⟨by decide, by decide, by decide, by decide, high, low, nofun⟩
    · next hd =>
      rw [List.forall_mem_singleton]
      exact Nat.le_of_not_lt hd
  simp only [stringText, List.forall_mem_cons, List.forall_mem_append, List.cons_append]
  refine ⟨by decide, fun c hc => ?_, by decide, nofun⟩
  obtain ⟨d, -, hd⟩ := List.mem_flatMap.mp hc
  exact char d c hd

theorem Shape.writes_text (s : String) : Shape.text.Writes (.text s) (stringText s) := by
  intro fuel depth rest _
  have hread : datum (fuel + 1) depth .text ('"' :: (s.toList.flatMap stringChar ++ '"' :: rest)) =
      (stringRest (s.toList.flatMap stringChar ++ '"' :: rest)).map
        fun p => (.text (String.ofList p.1), p.2) := rfl
  rw [stringText_append, hread, stringRest_flatMap]
  show Except.ok (Datum.text (String.ofList s.toList), rest) = _
  rw [String.ofList_toList]

theorem datum_digit {c : Char} (hc : c.isDigit = true) :
    datum (fuel + 1) depth .natural (c :: cs) =
      (unsignedNumber false (c :: cs) >>= fun p => natural p.1 p.2) := by
  unfold datum
  rw [skipSpace_cons (isSpace_of_isDigit hc)]
  split
  -- A digit is no minus sign.
  case h_3 h =>
    obtain ⟨rfl, -⟩ := List.cons.inj h
    exact absurd hc (by decide)
  case h_4 h =>
    obtain ⟨rfl, rfl⟩ := List.cons.inj h
    rw [if_pos hc]
  all_goals simp_all

theorem Shape.writes_natural {n : Nat} (h : n < Nat.pow 2 64) :
    Shape.natural.Writes (.natural n) (Nat.toDigits 10 n) := by
  intro fuel depth rest ends
  obtain ⟨c, cs, hdigits, hc⟩ := exists_toDigits n
  have exact : isExact false n = true := decide_eq_true h
  have hread := unsignedNumber_toDigits false n ends
  rw [numberOf_toDigits h exact] at hread
  rw [hdigits, List.cons_append] at hread ⊢
  rw [datum_digit hc, hread]
  rfl

/-- A member that names a field which has not come yet adds its datum to those found. -/
theorem namedFields_member (hfield : fields.lookup name = some shape)
    (hnew : found.lookup name = none) (hwrites : shape.Writes d written) (ends : EndsNumber rest)
    (hnext : nextMember first cs =
      .ok (true, name.toList.flatMap stringChar ++ '"' :: ':' :: (written ++ rest))) :
    namedFields (fuel + 2) depth fields first found cs =
      namedFields (fuel + 1) depth fields false (found ++ [(name, d)]) rest := by
  have hcolon : colon (':' :: (written ++ rest)) = .ok (written ++ rest) := rfl
  conv => lhs; unfold namedFields
  simp only [hnext, Outcome.ok_bind, stringRest_flatMap, String.ofList_toList, hfield, hnew,
    Option.isSome_none, Bool.false_eq_true, if_false, hcolon, hwrites fuel depth rest ends]

theorem namedFields_first (hfield : fields.lookup name = some shape)
    (hnew : found.lookup name = none) (hwrites : shape.Writes d written)
    (ends : EndsNumber rest) : namedFields (fuel + 2) depth fields true found
      (stringText name ++ ':' :: (written ++ rest)) =
        namedFields (fuel + 1) depth fields false (found ++ [(name, d)]) rest := by
  rw [stringText_append]
  exact namedFields_member hfield hnew hwrites ends (nextMember_first _)

theorem namedFields_comma (hfield : fields.lookup name = some shape)
    (hnew : found.lookup name = none) (hwrites : shape.Writes d written)
    (ends : EndsNumber rest) : namedFields (fuel + 2) depth fields false found
      (',' :: (stringText name ++ ':' :: (written ++ rest))) =
        namedFields (fuel + 1) depth fields false (found ++ [(name, d)]) rest := by
  rw [stringText_append]
  exact namedFields_member hfield hnew hwrites ends (nextMember_comma _)

/-- An object is a record of the fields that its members are read as. -/
theorem readShape_record {text title : String} (htext : text.toList = '\x7b' :: cs)
    (hread : ∀ fuel, cs.length ≤ fuel →
      namedFields fuel (maxDepth - 1) fields true [] cs = .ok (found, [])) :
    readShape (.record title fields) text = .ok (.record found) := by
  have step (fuel : Nat) : datum (fuel + 1) maxDepth (.record title fields) ('\x7b' :: cs) =
      (namedFields fuel (maxDepth - 1) fields true [] cs).map fun p => (.record p.1, p.2) := rfl
  have enough : cs.length ≤ fuelFor ('\x7b' :: cs) + 1 := by
    rw [fuelFor, List.length_cons]
    omega
  simp only [readShape, htext, step, hread _ enough]
  rfl

end TableStore.Json
