import TableStore.Proofs.Json.RoundTrip

/-! The limit on nesting. A value that is read is nested as deeply as the limit at most, and the
only thing that a lower limit changes is that texts are refused as nested too deeply. -/
namespace TableStore.Json

mutual

def nesting : Json → Nat
  | array items => itemsNesting items + 1
  | object members => membersNesting members + 1
  | _ => 0

def itemsNesting : List Json → Nat
  | [] => 0
  | v :: rest => max (nesting v) (itemsNesting rest)

def membersNesting : List (String × Json) → Nat
  | [] => 0
  | (_, v) :: rest => max (nesting v) (membersNesting rest)

end

section Nesting

variable {n depth : Nat} {v : Json} {vs : List Json} {ms : List (String × Json)}

theorem itemsNesting_le : itemsNesting vs ≤ n ↔ ∀ v ∈ vs, v.nesting ≤ n := by
  induction vs with
  | nil => simp [itemsNesting]
  | cons v vs ih => rw [itemsNesting, Nat.max_le, ih, List.forall_mem_cons]

theorem membersNesting_le : membersNesting ms ≤ n ↔ ∀ m ∈ ms, m.2.nesting ≤ n := by
  induction ms with
  | nil => simp [membersNesting]
  | cons m ms ih => rw [membersNesting, Nat.max_le, ih, List.forall_mem_cons]

theorem Exact.of_nesting_le (h : Exact depth v) (hn : v.nesting ≤ n) : Exact n v := by
  induction h generalizing n with
  | null => exact .null
  | bool b => exact .bool b
  | string s => exact .string s
  | integer low high => exact .integer low high
  | array items ih =>
    obtain ⟨n, rfl⟩ := Nat.exists_eq_add_of_le' (Nat.le_trans (Nat.le_add_left 1 _) hn)
    have each := itemsNesting_le.mp (Nat.le_of_succ_le_succ hn)
    exact .array fun v hv => ih v hv (each v hv)
  | object sorted values ih =>
    obtain ⟨n, rfl⟩ := Nat.exists_eq_add_of_le' (Nat.le_trans (Nat.le_add_left 1 _) hn)
    have each := membersNesting_le.mp (Nat.le_of_succ_le_succ hn)
    exact .object sorted fun m hm => ih m hm (each m hm)

theorem Exact.nesting_le (h : Exact depth v) : v.nesting ≤ depth := by
  induction h with
  | null => exact Nat.zero_le _
  | bool b => exact Nat.zero_le _
  | string s => exact Nat.zero_le _
  | integer low high => exact Nat.zero_le _
  | array items ih => exact Nat.succ_le_succ (itemsNesting_le.mpr ih)
  | object sorted values ih => exact Nat.succ_le_succ (membersNesting_le.mpr ih)

theorem mem_putMember {name : String} {value : Json} {m : String × Json}
    (h : m ∈ putMember name value ms) : m = (name, value) ∨ m ∈ ms := by
  induction ms with
  | nil => exact .inl (List.mem_singleton.mp h)
  | cons k ms ih =>
    unfold putMember at h
    split at h
    · exact (List.mem_cons.mp h).imp_right (List.mem_cons_of_mem _)
    · split at h
      · exact List.mem_cons.mp h
      · rcases List.mem_cons.mp h with rfl | h
        · exact .inr List.mem_cons_self
        · exact (ih h).imp_right (List.mem_cons_of_mem _)

theorem nesting_ofMembers_le (h : ∀ m ∈ ms, m.2.nesting ≤ n) : (ofMembers ms).nesting ≤ n + 1 := by
  have build (before ms : List (String × Json)) (hb : ∀ m ∈ before, m.2.nesting ≤ n)
      (h : ∀ m ∈ ms, m.2.nesting ≤ n) :
      ∀ m ∈ ms.foldl (fun sorted m => putMember m.1 m.2 sorted) before, m.2.nesting ≤ n := by
    induction ms generalizing before with
    | nil => exact hb
    | cons k ms ih =>
      obtain ⟨hk, hms⟩ := List.forall_mem_cons.mp h
      refine ih _ (fun m hm => ?_) hms
      rcases mem_putMember hm with rfl | hm
      · exact hk
      · exact hb m hm
  exact Nat.succ_le_succ (membersNesting_le.mpr (build [] ms (List.forall_mem_nil _) h))

end Nesting

section Limits

variable {α β : Type} {r r' : Except ReadFault α}

/-- The first result is the second one, unless a limit was hit. -/
def Limits (r r' : Except ReadFault α) : Prop :=
  r = r' ∨ ∃ fault, fault.cause = .tooDeep ∧ r = .error fault

theorem Limits.map (h : Limits r r') (f : α → β) : Limits (r.map f) (r'.map f) := by
  rcases h with rfl | ⟨fault, hcause, rfl⟩
  · exact .inl rfl
  · exact .inr ⟨fault, hcause, rfl⟩

theorem Limits.bind {f f' : α → Except ReadFault β} (h : Limits r r')
    (hf : ∀ a, Limits (f a) (f' a)) : Limits (r >>= f) (r' >>= f') := by
  rcases h with rfl | ⟨fault, hcause, rfl⟩
  · cases r with
    | ok a => exact hf a
    | error fault => exact .inl rfl
  · exact .inr ⟨fault, hcause, rfl⟩

end Limits

section Reading

variable {fuel depth depth' : Nat} {cs rest : List Char}

theorem nesting_ident {v w : Json} {name : List Char} (h : ident v name cs = .ok (w, rest))
    (hv : v.nesting = 0) : w.nesting = 0 := by
  induction name generalizing cs with
  | nil =>
    cases h
    exact hv
  | cons c name ih =>
    cases cs with
    | nil => cases h
    | cons d cs =>
      unfold ident at h
      split at h
      · exact ih h
      · cases h

/-- A value for which no list and no object may be opened is neither. -/
theorem nesting_of_value_zero {v : Json} (h : value fuel 0 cs = .ok (v, rest)) :
    v.nesting = 0 := by
  have mapped {α : Type} {x : Except ReadFault α} {f : α → Json × List Char}
      (flat : ∀ a, (f a).1.nesting = 0) (h : x.map f = .ok (v, rest)) : v.nesting = 0 := by
    obtain ⟨a, -, ha⟩ := Outcome.map_eq_ok.mp h
    have := flat a
    rwa [ha] at this
  cases fuel with
  | zero => cases h
  | succ fuel =>
    unfold value at h
    split at h
    · cases h
    iterate 3
      · exact nesting_ident h rfl
    · exact mapped (fun _ => rfl) h
    · exact mapped (fun _ => rfl) h
    · cases h
    · cases h
    · split at h
      · exact mapped (fun _ => rfl) h
      · cases h

/-- Reads on after a bracket was opened, if one more may be. -/
def opened (cs : List Char) (read : Nat → Except ReadFault α) : Nat → Except ReadFault α
  | 0 => failIn .tooDeep cs
  | depth + 1 => read depth

theorem opened_eq_ok {read : Nat → Except ReadFault α} {a : α} :
    opened cs read depth = .ok a ↔ ∃ d, depth = d + 1 ∧ read d = .ok a := by
  cases depth <;> simp [opened, failIn]

theorem Limits.opened {read : Nat → Except ReadFault α} (h : depth ≤ depth')
    (hread : ∀ d d', d ≤ d' → Limits (read d) (read d')) :
    Limits (opened cs read depth) (opened cs read depth') := by
  cases depth with
  | zero => exact .inr ⟨_, rfl, rfl⟩
  | succ depth =>
    obtain ⟨depth', rfl⟩ := Nat.exists_eq_add_of_le' (Nat.le_trans (Nat.le_add_left 1 _) h)
    exact hread depth depth' (Nat.le_of_succ_le_succ h)

/-- The limit counts only where a list or an object begins. -/
theorem value_cases (fuel : Nat) (cs : List Char) :
    (∀ depth, value (fuel + 1) depth cs = value (fuel + 1) 0 cs) ∨
    (∃ rest, ∀ depth, value (fuel + 1) depth cs = opened ('[' :: rest)
      (fun depth => (items fuel depth true rest).map fun p => (.array p.1, p.2)) depth) ∨
    ∃ rest, ∀ depth, value (fuel + 1) depth cs = opened ('\x7b' :: rest)
      (fun depth => (members fuel depth true rest).map fun p => (ofMembers p.1, p.2)) depth := by
  cases hcs : skipSpace cs with
  | nil => exact .inl fun depth => by simp only [value, hcs]
  | cons c rest =>
    by_cases hlist : c = '['
    · subst hlist
      refine .inr (.inl ⟨rest, fun depth => ?_⟩)
      unfold value
      rw [hcs]
      rfl
    by_cases hobject : c = '\x7b'
    · subst hobject
      refine .inr (.inr ⟨rest, fun depth => ?_⟩)
      unfold value
      rw [hcs]
      rfl
    refine .inl fun depth => ?_
    have other (depth : Nat) (h : c ∉ ['n', 't', 'f', '"', '-']) : value (fuel + 1) depth cs =
        if c.isDigit then
          (unsignedNumber false (c :: rest)).map fun p => (.number p.1, p.2)
        else failIn .noValue (c :: rest) := by
      simp only [List.mem_cons, List.not_mem_nil, or_false, not_or] at h
      simp [value, hcs, h]
    by_cases h : c ∈ ['n', 't', 'f', '"', '-']
    · simp only [List.mem_cons, List.not_mem_nil, or_false] at h
      rcases h with rfl | rfl | rfl | rfl | rfl <;> simp only [value, hcs]
    · rw [other depth h, other 0 h]

/-- A lower limit refuses more, and changes nothing else. -/
theorem limits_of_le (fuel : Nat) (h : depth ≤ depth') :
    (∀ cs, Limits (value fuel depth cs) (value fuel depth' cs)) ∧
      (∀ first cs, Limits (items fuel depth first cs) (items fuel depth' first cs)) ∧
      ∀ first cs, Limits (members fuel depth first cs) (members fuel depth' first cs) := by
  induction fuel generalizing depth depth' with
  | zero => exact ⟨fun _ => .inl rfl, fun _ _ => .inl rfl, fun _ _ => .inl rfl⟩
  | succ fuel ih =>
    obtain ⟨values, lists, objects⟩ := ih h
    refine ⟨fun cs => ?_, fun first cs => ?_, fun first cs => ?_⟩
    · rcases value_cases fuel cs with hflat | ⟨rest, hlist⟩ | ⟨rest, hobject⟩
      · rw [hflat depth, hflat depth']
        exact .inl rfl
      · rw [hlist depth, hlist depth']
        exact .opened h fun d d' hd => ((ih hd).2.1 true rest).map _
      · rw [hobject depth, hobject depth']
        exact .opened h fun d d' hd => ((ih hd).2.2 true rest).map _
    · unfold items
      refine .bind (.inl rfl) ?_
      rintro ⟨_ | _, cs⟩
      · exact .inl rfl
      · refine .bind (values cs) ?_
        rintro ⟨v, cs⟩
        refine .bind (lists false cs) ?_
        exact fun _ => .inl rfl
    · unfold members
      refine .bind (.inl rfl) ?_
      rintro ⟨_ | _, cs⟩
      · exact .inl rfl
      · refine .bind (.inl rfl) ?_
        rintro ⟨name, cs⟩
        refine .bind (.inl rfl) fun cs => .bind (values cs) ?_
        rintro ⟨v, cs⟩
        refine .bind (objects false cs) ?_
        exact fun _ => .inl rfl

/-- What is read is not nested more deeply than the limit. -/
theorem nesting_le_of_read (fuel depth : Nat) :
    (∀ cs v rest, value fuel depth cs = .ok (v, rest) → v.nesting ≤ depth) ∧
      (∀ first cs vs rest, items fuel depth first cs = .ok (vs, rest) →
        ∀ v ∈ vs, v.nesting ≤ depth) ∧
      ∀ first cs ms rest, members fuel depth first cs = .ok (ms, rest) →
        ∀ m ∈ ms, m.2.nesting ≤ depth := by
  induction fuel generalizing depth with
  | zero => refine ⟨fun _ _ _ h => ?_, fun _ _ _ _ h => ?_, fun _ _ _ _ h => ?_⟩ <;> cases h
  | succ fuel ih =>
    obtain ⟨values, lists, objects⟩ := ih depth
    refine ⟨fun cs v rest h => ?_, fun first cs vs rest h => ?_, fun first cs ms rest h => ?_⟩
    · rcases value_cases fuel cs with hflat | ⟨rest', hlist⟩ | ⟨rest', hobject⟩
      · rw [hflat depth] at h
        rw [nesting_of_value_zero h]
        exact Nat.zero_le depth
      · rw [hlist depth] at h
        obtain ⟨d, rfl, h⟩ := opened_eq_ok.mp h
        obtain ⟨p, hp, h⟩ := Outcome.map_eq_ok.mp h
        cases h
        exact Nat.succ_le_succ (itemsNesting_le.mpr ((ih d).2.1 _ _ _ _ hp))
      · rw [hobject depth] at h
        obtain ⟨d, rfl, h⟩ := opened_eq_ok.mp h
        obtain ⟨p, hp, h⟩ := Outcome.map_eq_ok.mp h
        cases h
        exact nesting_ofMembers_le ((ih d).2.2 _ _ _ _ hp)
    · unfold items at h
      obtain ⟨⟨more, cs'⟩, -, h⟩ := Outcome.bind_eq_ok.mp h
      cases more with
      | false =>
        cases h
        exact List.forall_mem_nil _
      | true =>
        obtain ⟨⟨v, cs₁⟩, hv, h⟩ := Outcome.bind_eq_ok.mp h
        obtain ⟨⟨vs', cs₂⟩, hvs, h⟩ := Outcome.bind_eq_ok.mp h
        cases h
        exact List.forall_mem_cons.mpr ⟨values _ _ _ hv, lists _ _ _ _ hvs⟩
    · unfold members at h
      obtain ⟨⟨more, cs'⟩, -, h⟩ := Outcome.bind_eq_ok.mp h
      cases more with
      | false =>
        cases h
        exact List.forall_mem_nil _
      | true =>
        obtain ⟨⟨name, cs₁⟩, -, h⟩ := Outcome.bind_eq_ok.mp h
        obtain ⟨cs₂, -, h⟩ := Outcome.bind_eq_ok.mp h
        obtain ⟨⟨v, cs₃⟩, hv, h⟩ := Outcome.bind_eq_ok.mp h
        obtain ⟨⟨ms', cs₄⟩, hms, h⟩ := Outcome.bind_eq_ok.mp h
        cases h
        exact List.forall_mem_cons.mpr ⟨values _ _ _ hv, objects _ _ _ _ hms⟩

end Reading

/-- Printed values are read back as long as they are not nested too deeply. -/
theorem read_render_of_le {depth : Nat} {v : Json} (h : Exact depth v)
    (hn : v.nesting ≤ maxDepth) : read (render v) = .ok v :=
  read_render (h.of_nesting_le hn)

/-- The printer has no limit: the text of a value that is nested too deeply is refused. -/
theorem read_render_of_lt {depth : Nat} {v : Json} (h : Exact depth v)
    (hn : maxDepth < v.nesting) :
    ∃ fault, fault.cause = .tooDeep ∧ read (render v) = .error fault := by
  have hdepth : maxDepth ≤ depth := by
    by_contra hlt
    exact absurd h.nesting_le (by omega)
  have hread := h.readsBack.reads (fuelFor (text v)) [] (Nat.le_add_right _ _) nofun
  rw [List.append_nil] at hread
  have hlimit := (limits_of_le (fuelFor (text v)) hdepth).1 (text v)
  rw [hread] at hlimit
  rcases hlimit with hok | ⟨fault, hcause, hfault⟩
  · exact absurd ((nesting_le_of_read _ _).1 _ _ _ hok) (Nat.not_le.mpr hn)
  · refine ⟨fault, hcause, ?_⟩
    unfold read render
    rw [String.toList_ofList, hfault]
    rfl

end TableStore.Json
