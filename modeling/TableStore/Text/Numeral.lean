/-! Decimal numerals of signed 64-bit integers. -/
namespace TableStore.Text

/-- The value of a run of decimal digits; none if it is empty or holds
anything but digits. Leading zeros are allowed. -/
def digits? (cs : List Char) : Option Nat :=
  if cs ≠ [] ∧ cs.all Char.isDigit then
    some (cs.foldl (fun n c => 10 * n + (c.toNat - '0'.toNat)) 0)
  else none

def integer? : List Char → Option Int
  | '+' :: ds => (digits? ds).map Int.ofNat
  | '-' :: ds => (digits? ds).map fun n => -Int.ofNat n
  | ds => (digits? ds).map Int.ofNat

def fitsInt64 (i : Int) : Bool :=
  -Int.ofNat (Nat.pow 2 63) ≤ i && i < Int.ofNat (Nat.pow 2 63)

def isInt64 (s : String) : Bool :=
  (integer? s.toList).any fitsInt64

example : isInt64 "-9223372036854775808" = true := by decide
example : isInt64 "9223372036854775808" = false := by decide
example : isInt64 "+" = false := by decide

end TableStore.Text
