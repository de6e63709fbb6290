import TableStore.Proofs.Json.Scalars

/-! Printed values are read back: those without decimal fractions, whose integers keep
their value, nested no deeper than the reader goes. -/
namespace TableStore.Json

/-- A value that text can hold exactly, in which at most `depth` lists and objects are
nested. The members of its objects are sorted by name. -/
inductive Exact : Nat → Json → Prop
  | null {depth : Nat} : Exact depth .null
  | bool {depth : Nat} (b : Bool) : Exact depth (.bool b)
  | string {depth : Nat} (s : String) : Exact depth (.string s)
  | integer {depth : Nat} {n : Int} (low : -(Nat.pow 2 63 : Int) ≤ n)
      (high : n < (Nat.pow 2 64 : Int)) : Exact depth (.number (.integer n))
  | array {depth : Nat} {vs : List Json} (items : ∀ v ∈ vs, Exact depth v) :
      Exact (depth + 1) (.array vs)
  | object {depth : Nat} {ms : List (String × Json)} (sorted : ms.Pairwise fun m k => m.1 < k.1)
      (values : ∀ m ∈ ms, Exact depth m.2) : Exact (depth + 1) (.object ms)

section Members

theorem putMember_last {name : String} {value : Json} {ms : List (String × Json)}
    (h : ∀ m ∈ ms, m.1 < name) : putMember name value ms = ms ++ [(name, value)] := by
  induction ms with
  | nil => rfl
  | cons m ms ih =>
    rw [List.forall_mem_cons] at h
    unfold putMember
    rw [if_neg (Ne.symm (String.ne_of_lt h.1)), if_neg (String.lt_asymm h.1), ih h.2]
    rfl

/-- Sorted members are what they make up. -/
theorem ofMembers_sorted {ms : List (String × Json)} (h : ms.Pairwise fun m k => m.1 < k.1) :
    ofMembers ms = object ms := by
  have build (before ms : List (String × Json))
      (h : (before ++ ms).Pairwise fun m k => m.1 < k.1) :
      ms.foldl (fun sorted m => putMember m.1 m.2 sorted) before = before ++ ms := by
    induction ms generalizing before with
    | nil => simp
    | cons m ms ih =>
      have last : ∀ k ∈ before, k.1 < m.1 := fun k hk =>
        (List.pairwise_append.mp h).2.2 k hk m List.mem_cons_self
      have hcut : before ++ m :: ms = before ++ [m] ++ ms := by simp
      rw [hcut] at h
      rw [List.foldl_cons, putMember_last last, ih _ h, hcut]
  unfold ofMembers
  rw [build [] ms h]
  rfl

end Members

section Steps

variable {depth fuel : Nat} {c : Char} {cs rest : List Char}

theorem skipSpace_cons (hc : isSpace c = false) : skipSpace (c :: cs) = c :: cs := by
  unfold skipSpace
  rw [List.dropWhile_cons_of_neg (by simp [hc])]

theorem isSpace_of_isDigit (hc : c.isDigit = true) : isSpace c = false := by
  by_contra hs
  simp only [Bool.not_eq_false, isSpace, Bool.or_eq_true, beq_iff_eq] at hs
  rcases hs with ((rfl | rfl) | rfl) | rfl <;> exact absurd hc (by decide)

theorem value_digit (hc : c.isDigit = true) : value (fuel + 1) depth (c :: cs) =
    (unsignedNumber false (c :: cs)).map fun (n, after) => (.number n, after) := by
  unfold value
  rw [skipSpace_cons (isSpace_of_isDigit hc)]
  split
  · next h => cases h
  -- No other value begins with a digit.
  iterate 7
    · next h =>
      obtain ⟨rfl, -⟩ := List.cons.inj h
      exact absurd hc (by decide)
  · next h =>
    obtain ⟨rfl, rfl⟩ := List.cons.inj h
    rw [if_pos hc]

/-- A text that begins with something else than a space or the end of a list. -/
def Begins (cs : List Char) : Prop :=
  ∃ c rest, cs = c :: rest ∧ isSpace c = false ∧ c ≠ ']'

theorem nextItem_first (h : Begins cs) : nextItem true cs = .ok (true, cs) := by
  obtain ⟨c, rest, rfl, hspace, hend⟩ := h
  unfold nextItem
  rw [skipSpace_cons hspace]
  simp

theorem nextItem_comma (h : Begins cs) : nextItem false (',' :: cs) = .ok (true, cs) := by
  obtain ⟨c, rest, rfl, hspace, hend⟩ := h
  unfold nextItem
  rw [skipSpace_cons (by decide)]
  simp [skipSpace_cons hspace, hend]

theorem nextMember_first (cs : List Char) : nextMember true ('"' :: cs) = .ok (true, cs) := rfl

theorem nextMember_comma (cs : List Char) :
    nextMember false (',' :: '"' :: cs) = .ok (true, cs) := rfl

variable {first : Bool} {v : Json} {vs : List Json} {name : List Char}
  {ms : List (String × Json)} {item more afterName afterColon : List Char}

theorem items_step (hnext : nextItem first cs = .ok (true, item))
    (hitem : value fuel depth item = .ok (v, more))
    (hmore : items fuel depth false more = .ok (vs, rest)) :
    items (fuel + 1) depth first cs = .ok (v :: vs, rest) := by
  simp only [items, hnext, hitem, hmore, Outcome.ok_bind]
  rfl

theorem members_step (hnext : nextMember first cs = .ok (true, item))
    (hname : stringRest item = .ok (name, afterName)) (hcolon : colon afterName = .ok afterColon)
    (hvalue : value fuel depth afterColon = .ok (v, more))
    (hmore : members fuel depth false more = .ok (ms, rest)) :
    members (fuel + 1) depth first cs = .ok ((String.ofList name, v) :: ms, rest) := by
  simp only [members, hnext, hname, hcolon, hvalue, hmore, Outcome.ok_bind]
  rfl

end Steps

section Texts

variable {rest : List Char}

/-- What follows the first item of a list, up to its end. -/
def moreItems (vs : List Json) : List Char :=
  vs.flatMap fun v => ',' :: text v

/-- A member without what separates it from others. -/
def memberText (m : String × Json) : List Char :=
  stringText m.1 ++ ':' :: text m.2

/-- What follows the first member of an object, up to its end. -/
def moreMembers (ms : List (String × Json)) : List Char :=
  ms.flatMap fun m => ',' :: memberText m

theorem itemsText_cons (v : Json) (vs : List Json) :
    itemsText (v :: vs) = text v ++ moreItems vs := by
  induction vs generalizing v with
  | nil => simp [itemsText, moreItems]
  | cons next vs ih =>
    rw [itemsText, ih]
    · simp [moreItems]
    · nofun

theorem membersText_cons (m : String × Json) (ms : List (String × Json)) :
    membersText (m :: ms) = memberText m ++ moreMembers ms := by
  induction ms generalizing m with
  | nil => simp [membersText, moreMembers, memberText]
  | cons next ms ih =>
    rw [membersText, ih]
    · simp [moreMembers, memberText]
    · nofun

theorem text_natCast (n : Nat) : text (.number (.integer n)) = Nat.toDigits 10 n :=
  Nat.toList_repr

theorem text_negSucc (n : Nat) :
    text (.number (.integer (.negSucc n))) = '-' :: Nat.toDigits 10 (n + 1) := by
  have htext : text (.number (.integer (.negSucc n))) = ("-" ++ (n + 1).repr).toList := rfl
  rw [htext, String.toList_append, Nat.toList_repr]
  rfl

theorem exists_toDigits (n : Nat) :
    ∃ d ds, Nat.toDigits 10 n = d :: ds ∧ d.isDigit = true := by
  have nonempty : Nat.toDigits 10 n ≠ [] := Nat.toDigits_ne_nil
  obtain ⟨d, ds, h⟩ := List.exists_cons_of_ne_nil nonempty
  have hd : d ∈ Nat.toDigits 10 n := h ▸ List.mem_cons_self
  exact ⟨d, ds, h, Nat.isDigit_of_mem_toDigits (by decide) (by decide) hd⟩

theorem endsNumber_cons {c : Char} (hc : c ∈ [',', ']', '\x7d']) (rest : List Char) :
    EndsNumber (c :: rest) := by
  rintro _ ⟨⟩
  simp only [List.mem_cons, List.not_mem_nil, or_false] at hc
  rcases hc with rfl | rfl | rfl <;> decide

end Texts

/-- Wherever the text of a value stands, reading it gives the value back. -/
structure ReadsBack (depth : Nat) (v : Json) : Prop where
  begins : ∀ rest, Begins (text v ++ rest)
  reads : ∀ fuel rest, 2 * (text v).length ≤ fuel → EndsNumber rest →
    value fuel depth (text v ++ rest) = .ok (v, rest)

namespace ReadsBack

variable {depth fuel : Nat} {vs : List Json} {ms : List (String × Json)} {rest : List Char}

theorem endsNumber_moreItems (vs : List Json) (rest : List Char) :
    EndsNumber (moreItems vs ++ ']' :: rest) := by
  cases vs <;> exact endsNumber_cons (by decide) _

theorem endsNumber_moreMembers (ms : List (String × Json)) (rest : List Char) :
    EndsNumber (moreMembers ms ++ '\x7d' :: rest) := by
  cases ms <;> exact endsNumber_cons (by decide) _

theorem length_moreItems_cons (v : Json) (vs : List Json) :
    (moreItems (v :: vs)).length = 1 + (text v).length + (moreItems vs).length := by
  simp only [moreItems, List.flatMap_cons, List.length_append, List.length_cons]
  omega

theorem items_moreItems (h : ∀ v ∈ vs, ReadsBack depth v)
    (hfuel : 2 * (moreItems vs).length < fuel) :
    items fuel depth false (moreItems vs ++ ']' :: rest) = .ok (vs, rest) := by
  induction vs generalizing fuel with
  | nil =>
    obtain ⟨fuel, rfl⟩ := Nat.exists_eq_succ_of_ne_zero (Nat.ne_zero_of_lt hfuel)
    rfl
  | cons v vs ih =>
    obtain ⟨hv, hvs⟩ := List.forall_mem_cons.mp h
    rw [length_moreItems_cons] at hfuel
    obtain ⟨fuel, rfl⟩ : ∃ k, fuel = k + 1 := ⟨fuel - 1, by omega⟩
    have hcut : moreItems (v :: vs) ++ ']' :: rest =
        ',' :: (text v ++ (moreItems vs ++ ']' :: rest)) := by
      simp [moreItems]
    rw [hcut]
    exact items_step (nextItem_comma (hv.begins _))
      (hv.reads _ _ (by omega) (endsNumber_moreItems vs rest)) (ih hvs (by omega))

/-- A member after its opening quote, and the members after it. -/
theorem members_memberText {first : Bool} {cs : List Char} {name : String} {v : Json}
    (hv : ReadsBack depth v) (hfuel : 2 * (text v).length ≤ fuel)
    (hmore : members fuel depth false (moreMembers ms ++ '\x7d' :: rest) = .ok (ms, rest))
    (hnext : nextMember first cs = .ok (true, name.toList.flatMap stringChar ++
      '"' :: ':' :: (text v ++ (moreMembers ms ++ '\x7d' :: rest)))) :
    members (fuel + 1) depth first cs = .ok ((name, v) :: ms, rest) := by
  have hmember := members_step hnext (stringRest_flatMap _ _) rfl
    (hv.reads _ _ hfuel (endsNumber_moreMembers ms rest)) hmore
  rwa [String.ofList_toList] at hmember

theorem memberText_append (m : String × Json) (cs : List Char) : memberText m ++ cs =
    '"' :: (m.1.toList.flatMap stringChar ++ '"' :: ':' :: (text m.2 ++ cs)) := by
  simp [memberText, stringText]

theorem length_memberText (m : String × Json) :
    (text m.2).length < (memberText m).length := by
  simp [memberText, stringText]
  omega

theorem members_moreMembers (h : ∀ m ∈ ms, ReadsBack depth m.2)
    (hfuel : 2 * (moreMembers ms).length < fuel) :
    members fuel depth false (moreMembers ms ++ '\x7d' :: rest) = .ok (ms, rest) := by
  induction ms generalizing fuel with
  | nil =>
    obtain ⟨fuel, rfl⟩ := Nat.exists_eq_succ_of_ne_zero (Nat.ne_zero_of_lt hfuel)
    rfl
  | cons m ms ih =>
    obtain ⟨hm, hms⟩ := List.forall_mem_cons.mp h
    have hlength : (moreMembers (m :: ms)).length =
        1 + (memberText m).length + (moreMembers ms).length := by
      simp only [moreMembers, List.flatMap_cons, List.length_append, List.length_cons]
      omega
    have := length_memberText m
    obtain ⟨fuel, rfl⟩ : ∃ k, fuel = k + 1 := ⟨fuel - 1, by omega⟩
    have hcut : moreMembers (m :: ms) ++ '\x7d' :: rest =
        ',' :: (memberText m ++ (moreMembers ms ++ '\x7d' :: rest)) := by
      simp [moreMembers]
    rw [hcut, memberText_append]
    exact members_memberText hm (by omega) (ih hms (by omega)) (nextMember_comma _)

theorem array (h : ∀ v ∈ vs, ReadsBack depth v) : ReadsBack (depth + 1) (.array vs) := by
  refine ⟨fun rest => ⟨_, _, rfl, by decide, by decide⟩, fun fuel rest hfuel _ => ?_⟩
  have htext : text (.array vs) ++ rest = '[' :: (itemsText vs ++ ']' :: rest) := by
    simp [text]
  have hlength : (text (.array vs)).length = (itemsText vs).length + 2 := by
    simp [text]
  obtain ⟨fuel, rfl⟩ : ∃ k, fuel = k + 2 := ⟨fuel - 2, by omega⟩
  have hread : items (fuel + 1) depth true (itemsText vs ++ ']' :: rest) = .ok (vs, rest) := by
    cases vs with
    | nil => rfl
    | cons v vs =>
      obtain ⟨hv, hvs⟩ := List.forall_mem_cons.mp h
      rw [itemsText_cons, List.length_append] at hlength
      rw [itemsText_cons, List.append_assoc]
      exact items_step (nextItem_first (hv.begins _))
        (hv.reads _ _ (by omega) (endsNumber_moreItems vs rest))
        (items_moreItems hvs (by omega))
  have hvalue : value (fuel + 2) (depth + 1) ('[' :: (itemsText vs ++ ']' :: rest)) =
      (items (fuel + 1) depth true (itemsText vs ++ ']' :: rest)).map
        fun p => (.array p.1, p.2) := rfl
  rw [htext, hvalue, hread]
  rfl

theorem object (sorted : ms.Pairwise fun m k => m.1 < k.1) (h : ∀ m ∈ ms, ReadsBack depth m.2) :
    ReadsBack (depth + 1) (.object ms) := by
  refine ⟨fun rest => ⟨_, _, rfl, by decide, by decide⟩, fun fuel rest hfuel _ => ?_⟩
  have htext : text (.object ms) ++ rest = '\x7b' :: (membersText ms ++ '\x7d' :: rest) := by
    simp [text]
  have hlength : (text (.object ms)).length = (membersText ms).length + 2 := by
    simp [text]
  obtain ⟨fuel, rfl⟩ : ∃ k, fuel = k + 2 := ⟨fuel - 2, by omega⟩
  have hread : members (fuel + 1) depth true (membersText ms ++ '\x7d' :: rest) =
      .ok (ms, rest) := by
    cases ms with
    | nil => rfl
    | cons m ms =>
      obtain ⟨hm, hms⟩ := List.forall_mem_cons.mp h
      rw [membersText_cons, List.length_append] at hlength
      have := length_memberText m
      rw [membersText_cons, List.append_assoc, memberText_append]
      exact members_memberText hm (by omega) (members_moreMembers hms (by omega))
        (nextMember_first _)
  have hvalue : value (fuel + 2) (depth + 1) ('\x7b' :: (membersText ms ++ '\x7d' :: rest)) =
      (members (fuel + 1) depth true (membersText ms ++ '\x7d' :: rest)).map
        fun p => (ofMembers p.1, p.2) := rfl
  rw [htext, hvalue, hread]
  show Except.ok (ofMembers ms, rest) = _
  rw [ofMembers_sorted sorted]

theorem string (s : String) : ReadsBack depth (.string s) := by
  refine ⟨fun rest => ⟨_, _, rfl, by decide, by decide⟩, fun fuel rest hfuel _ => ?_⟩
  have htext : text (.string s) ++ rest =
      '"' :: (s.toList.flatMap stringChar ++ '"' :: rest) := by
    simp [text, stringText]
  have hlength : (text (.string s)).length ≠ 0 := by
    simp [text, stringText]
  obtain ⟨fuel, rfl⟩ : ∃ k, fuel = k + 1 := ⟨fuel - 1, by omega⟩
  have hvalue : value (fuel + 1) depth ('"' :: (s.toList.flatMap stringChar ++ '"' :: rest)) =
      (stringRest (s.toList.flatMap stringChar ++ '"' :: rest)).map
        fun p => (.string (String.ofList p.1), p.2) := rfl
  rw [htext, hvalue, stringRest_flatMap]
  show Except.ok (Json.string (String.ofList s.toList), rest) = _
  rw [String.ofList_toList]

theorem natural {n : Nat} (h : n < Nat.pow 2 64) : ReadsBack depth (.number (.integer n)) := by
  obtain ⟨d, ds, hdigits, hd⟩ := exists_toDigits n
  have htext (rest : List Char) : text (.number (.integer n)) ++ rest = d :: (ds ++ rest) := by
    rw [text_natCast, hdigits, List.cons_append]
  have hend : d ≠ ']' := by
    rintro rfl
    exact absurd hd (by decide)
  refine ⟨fun rest => ⟨_, _, htext rest, isSpace_of_isDigit hd, hend⟩, ?_⟩
  intro fuel rest hfuel ends
  rw [text_natCast, hdigits, List.length_cons] at hfuel
  obtain ⟨fuel, rfl⟩ : ∃ k, fuel = k + 1 := ⟨fuel - 1, by omega⟩
  have exact : isExact false n = true := decide_eq_true h
  rw [htext, value_digit hd, ← List.cons_append, ← hdigits, unsignedNumber_toDigits false n ends,
    numberOf_toDigits h exact]
  rfl

theorem negative {n : Nat} (h : n < Nat.pow 2 63) :
    ReadsBack depth (.number (.integer (.negSucc n))) := by
  have htext (rest : List Char) : text (.number (.integer (.negSucc n))) ++ rest =
      '-' :: (Nat.toDigits 10 (n + 1) ++ rest) := by
    rw [text_negSucc, List.cons_append]
  refine ⟨fun rest => ⟨_, _, htext rest, by decide, by decide⟩, ?_⟩
  intro fuel rest hfuel ends
  rw [text_negSucc, List.length_cons] at hfuel
  obtain ⟨fuel, rfl⟩ : ∃ k, fuel = k + 1 := ⟨fuel - 1, by omega⟩
  have exact : isExact true (n + 1) = true := by
    have : n + 1 ≤ Nat.pow 2 63 := h
    simp [isExact, this]
  have fits : n + 1 < Nat.pow 2 64 :=
    Nat.lt_of_le_of_lt h (by decide)
  have hvalue : value (fuel + 1) depth ('-' :: (Nat.toDigits 10 (n + 1) ++ rest)) =
      (unsignedNumber true (Nat.toDigits 10 (n + 1) ++ rest)).map
        fun p => (.number p.1, p.2) := rfl
  rw [htext, hvalue, unsignedNumber_toDigits true (n + 1) ends, numberOf_toDigits fits exact]
  rfl

/-- A name of a value is read back. -/
theorem named {v : Json} {c : Char} {name : List Char} (htext : text v = c :: name)
    (hc : isSpace c = false ∧ c ≠ ']')
    (h : ∀ fuel rest, value (fuel + 1) depth (c :: (name ++ rest)) = .ok (v, rest)) :
    ReadsBack depth v := by
  refine ⟨fun rest => ⟨_, _, by rw [htext]; rfl, hc.1, hc.2⟩, fun fuel rest hfuel _ => ?_⟩
  rw [htext, List.length_cons] at hfuel
  obtain ⟨fuel, rfl⟩ : ∃ k, fuel = k + 1 := ⟨fuel - 1, by omega⟩
  rw [htext]
  exact h fuel rest

end ReadsBack

theorem Exact.readsBack {depth : Nat} {v : Json} (h : Exact depth v) : ReadsBack depth v := by
  induction h with
  | null => exact .named rfl (by decide) fun _ _ => rfl
  | bool b =>
    cases b with
    | false => exact .named rfl (by decide) fun _ _ => rfl
    | true => exact .named rfl (by decide) fun _ _ => rfl
  | string s => exact .string s
  | @integer _ n low high =>
    cases n with
    | ofNat n => exact .natural (Int.ofNat_lt.mp high)
    | negSucc n => exact .negative (by omega)
  | array items ih => exact .array ih
  | object sorted values ih => exact .object sorted ih

/-- An exact value is what its text is read as. -/
theorem read_render {v : Json} (h : Exact maxDepth v) : read (render v) = .ok v := by
  have hread := h.readsBack.reads (fuelFor (text v)) [] (Nat.le_add_right _ _) nofun
  rw [List.append_nil] at hread
  unfold read render
  rw [String.toList_ofList, hread]
  rfl

end TableStore.Json
