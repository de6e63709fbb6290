import TableStore.Json.Shape
import TableStore.Proofs.Outcome

/-! The range of the numbers that are read. An integer is kept as one only if it fits in 64 bits,
with or without a sign, so that a larger number never comes out of a text. -/
namespace TableStore.Json

open TableStore.Outcome

def Number.Fits : Number → Prop
  | .integer n => n < Nat.pow 2 64
  | .decimal _ => True

inductive Datum.Fits : Datum → Prop
  | text (s : String) : Fits (.text s)
  | natural {n : Nat} (h : n < Nat.pow 2 64) : Fits (.natural n)
  | record {fields : List (String × Datum)} (h : ∀ f ∈ fields, f.2.Fits) : Fits (.record fields)

theorem gives_failAt {P : α → Prop} (cause : Cause) (unread : List Char) :
    Gives P (failAt cause unread) :=
  .error _

theorem gives_failIn {P : α → Prop} (cause : Cause) (unread : List Char) :
    Gives P (failIn cause unread) :=
  .error _

theorem gives_wrongKind {P : α → Prop} (found : String) (shape : Shape) (unread : List Char) :
    Gives P (wrongKind found shape unread) :=
  gives_failAt _ _

theorem numberOf_fits (negative : Bool) (whole fraction : List Char) (exponent : Option Int)
    (after : List Char) :
    Gives (fun p => p.1.Fits) (numberOf negative whole fraction exponent after) := by
  unfold numberOf
  refine .ite (fun ⟨_, _, _, exact⟩ => .ok ?_) fun _ => ?_
  · show (if negative then _ else _) < _
    unfold isExact at exact
    cases negative <;> simp at exact ⊢ <;> omega
  · simp only
    split
    · exact .ok (by trivial)
    · exact gives_failAt _ _

theorem numberRest_fits (negative : Bool) (whole cs : List Char) :
    Gives (fun p => p.1.Fits) (numberRest negative whole cs) := by
  unfold numberRest
  extract_lets scaled
  have fits (r : List Char × List Char) : Gives (fun p => p.1.Fits) (scaled r) := by
    obtain ⟨fraction, cs⟩ := r
    simp only [scaled]
    split
    case h_3 => exact numberOf_fits _ _ _ _ _
    all_goals
      refine .bind_any fun ⟨small, digits, after⟩ => ?_
      simp only
      split
      · exact numberOf_fits _ _ _ _ _
      · exact .ite (fun _ => .ok (by trivial)) fun _ => gives_failAt _ _
  split
  · split <;> exact .bind_any fits
  · exact .bind_any fits

theorem unsignedNumber_fits (negative : Bool) (cs : List Char) :
    Gives (fun p => p.1.Fits) (unsignedNumber negative cs) := by
  unfold unsignedNumber
  split
  · exact gives_failAt _ _
  · refine .ite (fun _ => ?_) fun _ => .ite (fun _ => numberRest_fits _ _ _) fun _ =>
      gives_failIn _ _
    split
    · exact .ite (fun _ => gives_failIn _ _) fun _ => numberRest_fits _ _ _
    · exact numberRest_fits _ _ _

theorem natural_fits {n : Number} (h : n.Fits) (after : List Char) :
    Gives (fun p => p.1.Fits) (natural n after) := by
  unfold natural
  match n with
  | .integer (.ofNat m) => exact .ok (.natural (Int.ofNat_lt.mp h))
  | .integer (.negSucc _) => exact gives_failAt _ _
  | .decimal d => exact gives_wrongKind _ _ _

/-- Whatever a text turns out to be, it is refused if it is not what the shape demands. -/
theorem unfit_gives {P : Datum × List Char → Prop} (shape : Shape) (cs : List Char) :
    Gives P (unfit shape cs) := by
  unfold unfit
  split
  case h_7 =>
    extract_lets refused
    have none_left (r : Number × List Char) : Gives P (refused r) := by
      obtain ⟨n, after⟩ := r
      simp only [refused]
      split <;> exact gives_wrongKind _ _ _
    split
    · exact .bind_any none_left
    · split <;> exact .bind_any none_left
    · exact .bind_any none_left
  case h_5 => exact gives_wrongKind _ _ _
  case h_6 => exact gives_wrongKind _ _ _
  all_goals exact .bind_any fun _ => gives_wrongKind _ _ _

/-- What the fields of a record hold, and the record itself, fits in 64 bits. -/
theorem datum_fits (fuel depth : Nat) :
    (∀ shape cs, Gives (fun p => p.1.Fits) (datum fuel depth shape cs)) ∧
      (∀ fields first found cs, (∀ f ∈ found, f.2.Fits) →
        Gives (fun p => ∀ f ∈ p.1, f.2.Fits) (namedFields fuel depth fields first found cs)) ∧
      ∀ fields first cs,
        Gives (fun p => ∀ f ∈ p.1, f.2.Fits) (listedFields fuel depth fields first cs) := by
  induction fuel generalizing depth with
  | zero =>
    refine ⟨fun _ _ => ?_, fun _ _ _ _ _ => ?_, fun _ _ _ => ?_⟩
    · exact gives_failIn _ _
    · exact gives_failIn _ _
    · exact gives_failIn _ _
  | succ fuel ih =>
    have numbers (negative : Bool) (cs : List Char) : Gives (fun p : Datum × List Char => p.1.Fits)
        (unsignedNumber negative cs >>= fun r => natural r.1 r.2) :=
      .bind (unsignedNumber_fits negative cs) fun r hr => natural_fits hr r.2
    refine ⟨fun shape cs => ?_, fun fields first found cs hfound => ?_, fun fields first cs => ?_⟩
    · unfold datum
      split
      · exact gives_failIn _ _
      · exact .map_any fun p => Datum.Fits.text (String.ofList p.1)
      · exact numbers true _
      · exact .ite (fun _ => numbers false _) fun _ => unfit_gives _ _
      · split
        · exact gives_failIn _ _
        · exact ((ih _).2.1 _ _ _ _ (List.forall_mem_nil _)).map fun p hp => .record hp
      · split
        · exact gives_failIn _ _
        · exact ((ih _).2.2 _ _ _).map fun p hp => .record hp
      · exact unfit_gives _ _
    · unfold namedFields
      refine .bind_any fun ⟨more, cs⟩ => ?_
      cases more with
      | false => exact .ok hfound
      | true =>
        refine .bind_any fun ⟨name, cs⟩ => ?_
        simp only
        split
        · exact .bind_any fun cs => .bind_any fun cs => (ih depth).2.1 _ _ _ _ hfound
        · refine .ite (fun _ => gives_failAt _ _) fun _ => .bind_any fun cs =>
            .bind ((ih depth).1 _ _) fun ⟨d, cs⟩ hd => (ih depth).2.1 _ _ _ _ ?_
          exact List.forall_mem_append.mpr ⟨hfound, List.forall_mem_singleton.mpr hd⟩
    · unfold listedFields
      cases fields with
      | nil => exact .map_any fun _ => List.forall_mem_nil _
      | cons field others =>
        refine .bind_any fun ⟨more, cs⟩ => ?_
        cases more with
        | false => exact .ok nofun
        | true =>
          refine .bind ((ih depth).1 _ _) fun ⟨d, cs⟩ hd =>
            .bind ((ih depth).2.2 _ _ _) fun ⟨ds, cs⟩ hds => .ok ?_
          exact List.forall_mem_cons.mpr ⟨hd, hds⟩

theorem readShape_fits (shape : Shape) (text : String) :
    Gives Datum.Fits (readShape shape text) := by
  unfold readShape
  refine .bind ((datum_fits _ _).1 shape text.toList) fun ⟨d, rest⟩ hd => ?_
  unfold finish
  split
  · exact .ok hd
  · exact gives_failIn _ _

theorem Datum.Fits.naturalField? {d : Datum} (h : d.Fits) {name : String} {n : Nat}
    (hn : d.naturalField? name = some n) : n < Nat.pow 2 64 := by
  unfold Datum.naturalField? at hn
  split at hn
  · next m hlookup =>
    cases hn
    cases h with
    | record h =>
      obtain ⟨before, after, hfields, -⟩ := List.lookup_eq_some_iff.mp hlookup
      have fits : (Datum.natural n).Fits := h (name, .natural n) (by simp_all [Datum.fields])
      cases fits with
      | natural fits => exact fits
    | text s => cases hlookup
    | natural h => cases hlookup
  · cases hn

end TableStore.Json
