import Mathlib.Data.List.Forall2

/-! Outcomes that are values or faults: when a sequence of steps succeeds, and in
which faults it can end. -/
namespace TableStore.Outcome

theorem ok_bind (a : α) (f : α → Except ε β) : (.ok a >>= f) = f a := rfl

theorem error_bind (e : ε) (f : α → Except ε β) : (.error e >>= f) = .error e := rfl

theorem bind_eq_ok {x : Except ε α} {f : α → Except ε β} {b : β} :
    (x >>= f) = .ok b ↔ ∃ a, x = .ok a ∧ f a = .ok b := by
  cases x <;> simp [bind, Except.bind]

theorem bind_eq_error {x : Except ε α} {f : α → Except ε β} {e : ε} :
    (x >>= f) = .error e ↔ x = .error e ∨ ∃ a, x = .ok a ∧ f a = .error e := by
  cases x <;> simp [bind, Except.bind]

theorem pure_eq_ok {a b : α} : (pure a : Except ε α) = .ok b ↔ a = b := by
  simp [pure, Except.pure]

theorem map_eq_ok {x : Except ε α} {f : α → β} {b : β} :
    x.map f = .ok b ↔ ∃ a, x = .ok a ∧ f a = b := by
  cases x <;> simp [Except.map]

theorem map_eq_error {x : Except ε α} {f : α → β} {e : ε} :
    x.map f = .error e ↔ x = .error e := by
  cases x <;> simp [Except.map]

theorem toOption_eq_some {x : Except ε α} {a : α} : x.toOption = some a ↔ x = .ok a := by
  cases x <;> simp [Except.toOption]

theorem forM_eq_ok {l : List α} {f : α → Except ε PUnit} :
    l.forM f = .ok ⟨⟩ ↔ ∀ a ∈ l, f a = .ok ⟨⟩ := by
  induction l with
  | nil => exact ⟨fun _ => nofun, fun _ => rfl⟩
  | cons a l ih =>
    have step : (a :: l).forM f = (f a >>= fun _ => l.forM f) := rfl
    rw [step, bind_eq_ok, List.forall_mem_cons, ← ih]
    exact ⟨fun ⟨_, h⟩ => h, fun h => ⟨_, h⟩⟩

theorem mapM_eq_ok {f : α → Except ε β} {l : List α} {l' : List β} :
    l.mapM f = .ok l' ↔ List.Forall₂ (fun a b => f a = .ok b) l l' := by
  induction l generalizing l' with
  | nil =>
    simp only [List.mapM_nil, pure_eq_ok, List.forall₂_nil_left_iff]
    exact eq_comm
  | cons a l ih =>
    simp only [List.mapM_cons, bind_eq_ok, pure_eq_ok, List.forall₂_cons_left_iff]
    constructor
    · rintro ⟨b, hb, bs, hbs, rfl⟩
      exact ⟨b, bs, hb, ih.mp hbs, rfl⟩
    · rintro ⟨b, bs, hb, hbs, rfl⟩
      exact ⟨b, hb, bs, ih.mpr hbs, rfl⟩

theorem exists_of_mem_mapM {f : α → Except ε β} {l : List α} {l' : List β}
    (h : l.mapM f = .ok l') {b : β} (hb : b ∈ l') : ∃ a ∈ l, f a = .ok b := by
  have hall := mapM_eq_ok.mp h
  clear h
  induction hall with
  | nil => cases hb
  | cons ha _ ih =>
    rcases List.mem_cons.mp hb with rfl | hb
    · exact ⟨_, List.mem_cons_self, ha⟩
    · obtain ⟨a, hmem, hfa⟩ := ih hb
      exact ⟨a, List.mem_cons_of_mem _ hmem, hfa⟩

/-- Every fault in which an outcome can end satisfies `P`. -/
def FailsIn (P : ε → Prop) (x : Except ε α) : Prop :=
  ∀ e, x = .error e → P e

namespace FailsIn

variable {P : ε → Prop}

theorem ok (a : α) : FailsIn P (.ok a : Except ε α) := nofun

theorem error {e : ε} (h : P e) : FailsIn P (.error e : Except ε α) := by
  rintro _ ⟨⟩
  exact h

theorem imp {Q : ε → Prop} {x : Except ε α} (h : FailsIn P x) (hPQ : ∀ e, P e → Q e) :
    FailsIn Q x :=
  fun e hx => hPQ e (h e hx)

/-- The second step may rely on what the first one gave. -/
theorem bind_of_ok {x : Except ε α} {f : α → Except ε β} (h : FailsIn P x)
    (hf : ∀ a, x = .ok a → FailsIn P (f a)) : FailsIn P (x >>= f) := by
  cases x with
  | ok a => exact hf a rfl
  | error e => exact error (h e rfl)

theorem bind {x : Except ε α} {f : α → Except ε β} (h : FailsIn P x)
    (hf : ∀ a, FailsIn P (f a)) : FailsIn P (x >>= f) :=
  bind_of_ok h fun a _ => hf a

theorem map {x : Except ε α} {f : α → β} (h : FailsIn P x) : FailsIn P (x.map f) := by
  cases x with
  | ok a => exact ok (f a)
  | error e => exact error (h e rfl)

theorem ite {p : Prop} [Decidable p] {x y : Except ε α} (hx : FailsIn P x) (hy : FailsIn P y) :
    FailsIn P (if p then x else y) := by
  split
  · exact hx
  · exact hy

theorem forM {l : List α} {f : α → Except ε PUnit} (h : ∀ a, FailsIn P (f a)) :
    FailsIn P (l.forM f) := by
  induction l with
  | nil => exact ok PUnit.unit
  | cons a l ih => exact bind (h a) fun _ => ih

theorem mapM {l : List α} {f : α → Except ε β} (h : ∀ a, FailsIn P (f a)) :
    FailsIn P (l.mapM f) := by
  induction l with
  | nil => exact ok []
  | cons a l ih =>
    rw [List.mapM_cons]
    exact bind (h a) fun b => bind ih fun bs => ok (b :: bs)

end FailsIn

/-- Every value in which an outcome can end satisfies `P`. -/
def Gives (P : α → Prop) (x : Except ε α) : Prop :=
  ∀ a, x = .ok a → P a

namespace Gives

variable {P : α → Prop} {Q : β → Prop}

theorem ok {a : α} (h : P a) : Gives P (.ok a : Except ε α) := by
  rintro _ ⟨⟩
  exact h

theorem error (e : ε) : Gives P (.error e : Except ε α) := nofun

theorem bind {x : Except ε α} {f : α → Except ε β} (h : Gives P x)
    (hf : ∀ a, P a → Gives Q (f a)) : Gives Q (x >>= f) := by
  cases x with
  | ok a => exact hf a (h a rfl)
  | error e => exact error e

theorem bind_any {x : Except ε α} {f : α → Except ε β} (hf : ∀ a, Gives Q (f a)) :
    Gives Q (x >>= f) :=
  bind (P := fun _ => True) (fun _ _ => trivial) fun a _ => hf a

theorem map {x : Except ε α} {f : α → β} (h : Gives P x) (hf : ∀ a, P a → Q (f a)) :
    Gives Q (x.map f) := by
  cases x with
  | ok a => exact ok (hf a (h a rfl))
  | error e => exact error e

theorem map_any {x : Except ε α} {f : α → β} (hf : ∀ a, Q (f a)) : Gives Q (x.map f) :=
  map (P := fun _ => True) (fun _ _ => trivial) fun a _ => hf a

theorem ite {p : Prop} [Decidable p] {x y : Except ε α} (hx : p → Gives P x)
    (hy : ¬p → Gives P y) : Gives P (if p then x else y) := by
  split
  · next h => exact hx h
  · next h => exact hy h

end Gives

end TableStore.Outcome
