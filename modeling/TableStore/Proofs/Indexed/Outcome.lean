import TableStore.Fault
import TableStore.Proofs.Outcome

/-! Computations that look things up by position. A position that is out of range ends such a
computation without an outcome, and so does a loop that takes more steps than it may. One that
comes to an outcome uses no position that is out of range. -/
namespace TableStore

/-- A computation that ends in an outcome; or in none, because a position was out of range or
because a loop did not end in time. -/
abbrev Indexed := ExceptT Fault Option

namespace Indexed

def of (x : Except Fault α) : Indexed α :=
  ExceptT.mk (some x)

/-- A loop that has taken all the steps it may and has not ended. -/
def endless : Indexed α :=
  ExceptT.lift none

def get (l : List α) (i : Nat) : Indexed α :=
  ExceptT.lift l[i]?

def set (l : List α) (i : Nat) (a : α) : Indexed (List α) :=
  ExceptT.lift (if i < l.length then some (l.set i a) else none)

def range (l : List α) (start stop : Nat) : Indexed (List α) :=
  ExceptT.lift
    (if start ≤ stop ∧ stop ≤ l.length then some ((l.drop start).take (stop - start)) else none)

/-- The difference of two counts, of which the second must not be the greater one. -/
def minus (m n : Nat) : Indexed Nat :=
  ExceptT.lift (if n ≤ m then some (m - n) else none)

variable {l : List α} {i : Nat} {a : α} {x : Except Fault α}

@[simp] theorem pure_eq (a : α) : (pure a : Indexed α) = of (.ok a) := rfl

@[simp] theorem throw_eq (fault : Fault) : (throw fault : Indexed α) = of (.error fault) := rfl

@[simp] theorem ok_bind (a : α) (f : α → Indexed β) : (of (.ok a) >>= f) = f a := rfl

@[simp] theorem error_bind (fault : Fault) (f : α → Indexed β) :
    (of (.error fault) >>= f) = of (.error fault) := rfl

theorem get_eq (h : l[i]? = some a) : get l i = of (.ok a) := by
  unfold get
  rw [h]
  rfl

theorem set_eq (h : i < l.length) (a : α) : set l i a = of (.ok (l.set i a)) := by
  unfold set
  rw [if_pos h]
  rfl

theorem range_eq {start stop : Nat} (h : start ≤ stop) (hl : stop ≤ l.length) :
    range l start stop = of (.ok ((l.drop start).take (stop - start))) := by
  unfold range
  rw [if_pos ⟨h, hl⟩]
  rfl

theorem minus_eq {m n : Nat} (h : n ≤ m) : minus m n = of (.ok (m - n)) := by
  unfold minus
  rw [if_pos h]
  rfl

/-- Steps that come to an outcome each come to one together; a step has only to do so for what
the steps before it give. -/
theorem bind_eq {p : Indexed α} {f : α → Indexed β} {g : α → Except Fault β} (hp : p = of x)
    (hf : ∀ a, x = .ok a → f a = of (g a)) : (p >>= f) = of (x >>= g) := by
  subst hp
  cases x with
  | ok a => exact hf a rfl
  | error fault => rfl

theorem mapM_eq {f : α → Indexed β} {g : α → Except Fault β} (h : ∀ a ∈ l, f a = of (g a)) :
    l.mapM f = of (l.mapM g) := by
  induction l with
  | nil => rfl
  | cons a l ih =>
    rw [List.forall_mem_cons] at h
    rw [List.mapM_cons, List.mapM_cons]
    exact bind_eq h.1 fun b _ => bind_eq (ih h.2) fun bs _ => rfl

theorem mapM_ok {f : α → Indexed β} {g : α → β} (h : ∀ a ∈ l, f a = of (.ok (g a))) :
    l.mapM f = of (.ok (l.map g)) :=
  (mapM_eq h).trans (congrArg of List.mapM_pure)

/-- Where a list has only `rest` left. -/
def position (l rest : List α) : Nat :=
  l.length - rest.length

section position

variable {rest : List α}

theorem position_self (l : List α) : position l l = 0 :=
  Nat.sub_self _

theorem position_nil (l : List α) : position l [] = l.length := rfl

theorem position_lt (h : a :: rest <:+ l) : position l (a :: rest) < l.length := by
  have := h.length_le
  simp only [position, List.length_cons] at this ⊢
  omega

theorem position_append (front : List α) (h : front ++ rest <:+ l) :
    position l (front ++ rest) + front.length = position l rest := by
  have := h.length_le
  simp only [position, List.length_append] at this ⊢
  omega

theorem position_succ (h : a :: rest <:+ l) : position l (a :: rest) + 1 = position l rest :=
  position_append [a] h

theorem position_succ_succ {b : α} (h : a :: b :: rest <:+ l) :
    position l (a :: b :: rest) + 2 = position l rest :=
  position_append [a, b] h

theorem position_pred (h : a :: rest <:+ l) : position l rest - 1 = position l (a :: rest) := by
  rw [← position_succ h, Nat.add_sub_cancel]

theorem get_position (h : a :: rest <:+ l) : get l (position l (a :: rest)) = of (.ok a) := by
  apply get_eq
  obtain ⟨front, rfl⟩ := h
  simp [position]

theorem drop_position (h : rest <:+ l) : l.drop (position l rest) = rest :=
  (List.suffix_iff_eq_drop.mp h).symm

theorem suffix_of_cons (h : a :: rest <:+ l) : rest <:+ l :=
  (List.suffix_cons a rest).trans h

end position

end Indexed

end TableStore
