/-! Sets of code points, given as ascending ranges with both ends in them. -/
namespace TableStore.Text

/-- Whether a character lies in one of the ranges. They ascend, so the search ends at
the first that lies beyond it. -/
def isIn (ranges : List (Nat × Nat)) (c : Char) : Bool :=
  match ranges with
  | [] => false
  | (first, last) :: more => first ≤ c.toNat && (c.toNat ≤ last || isIn more c)

end TableStore.Text
