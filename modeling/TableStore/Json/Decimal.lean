/-! Decimal fractions as 64-bit binary floating point holds them: each is the
shortest decimal among those that round to the same binary number. -/
namespace TableStore.Json

/-- The number `± digits × 10 ^ exponent`; the last digit is no zero unless all
of them are. -/
structure Decimal where
  negative : Bool
  digits : Nat
  exponent : Int
deriving DecidableEq

namespace Decimal

/-- A quotient rounded to the nearest integer, a half to the even neighbour. -/
def roundDiv (n d : Nat) : Nat :=
  let q := n / d
  let r := n % d
  if 2 * r < d then q else if d < 2 * r then q + 1 else q + q % 2

def scaleDown (base : Nat) (f : Nat × Nat) (e : Int) : Nat × Nat :=
  if 0 ≤ e then (f.1, f.2 * Nat.pow base e.toNat) else (f.1 * Nat.pow base (-e).toNat, f.2)

/-- The binary number nearest to a positive fraction, as a mantissa of at most 53
bits and an exponent of two; none if it is too large. -/
def binary? (f : Nat × Nat) : Option (Nat × Int) :=
  let low : Int := max ((f.1.log2 : Int) - f.2.log2 - 53) (-1074)
  let g := scaleDown 2 f low
  let e := if g.1 / g.2 < Nat.pow 2 53 then low else low + 1
  let g := scaleDown 2 f e
  let m := roundDiv g.1 g.2
  let (m, e) := if m = Nat.pow 2 53 then (Nat.pow 2 52, e + 1) else (m, e)
  if e ≤ 971 then some (m, e) else none

/-- The exponent of ten of a positive fraction's leading digit. -/
def leading (f : Nat × Nat) : Int :=
  if f.2 ≤ f.1 then (Nat.toDigits 10 (f.1 / f.2)).length - 1
  else
    match (List.range 400).find? fun j => f.2 ≤ f.1 * Nat.pow 10 j with
    | some j => -(j : Int)
    | none => -400

/-- The integers `c` with `c × 10 ^ k` strictly inside, or on the border of, the
interval that rounds to a binary number; of the two candidates the nearer one, and
the even one if both are equally near. -/
def onGrid? (m : Nat) (e k : Int) : Option Nat :=
  let below := if m = Nat.pow 2 52 ∧ -1074 < e then 4 * m - 1 else 4 * m - 2
  let above := 4 * m + 2
  let unit := scaleDown 2 (1, 1) (2 - e)
  let grid := scaleDown 10 (1, 1) (-k)
  let scaled (x : Nat) : Nat := x * unit.1 * grid.2
  let point (c : Nat) : Nat := c * grid.1 * unit.2
  let inside (c : Nat) : Bool :=
    if m % 2 = 0 then scaled below ≤ point c && point c ≤ scaled above
    else scaled below < point c && point c < scaled above
  let c := scaled (4 * m) / (grid.1 * unit.2)
  match 0 < c && inside c, inside (c + 1) with
  | true, true =>
    let middle := point c + point (c + 1)
    if 2 * scaled (4 * m) < middle ∨ (2 * scaled (4 * m) = middle ∧ c % 2 = 0) then some c
    else some (c + 1)
  | true, false => some c
  | false, true => some (c + 1)
  | false, false => none

def normal (negative : Bool) (digits : Nat) (exponent : Int) : Decimal :=
  if digits = 0 then ⟨negative, 0, 0⟩
  else
    let zeros := ((Nat.toDigits 10 digits).reverse.takeWhile (· == '0')).length
    ⟨negative, digits / Nat.pow 10 zeros, exponent + zeros⟩

/-- The shortest decimal that rounds to a binary number. -/
def shortest (negative : Bool) (m : Nat) (e : Int) : Decimal :=
  if m = 0 then ⟨negative, 0, 0⟩
  else
    let top := leading (scaleDown 2 (m, 1) (-e))
    match (List.range 17).findSome? fun (n : Nat) => (onGrid? m e (top - n)).map (·, top - n) with
    | some (c, k) => normal negative c k
    | none => ⟨negative, 0, 0⟩

def fraction (b : Nat × Int) : Nat × Nat :=
  scaleDown 2 (b.1, 1) (-b.2)

def product (f g : Nat × Nat) : Nat × Nat :=
  (f.1 * g.1, f.2 * g.2)

def quotient (f g : Nat × Nat) : Nat × Nat :=
  (f.1 * g.2, f.2 * g.1)

/-- The largest power of ten that binary floating point holds. -/
def maxPower : Nat := 308

def power (n : Nat) : Nat × Nat :=
  fraction ((binary? (Nat.pow 10 n, 1)).getD (0, 0))

/-- A binary number divided by `10 ^ n`: rounded after each division, and divided by
the largest power as long as more than that is left. -/
def divide (b : Nat × Int) (n : Nat) : Nat × Int :=
  if b.1 = 0 then b
  else if n ≤ maxPower then (binary? (quotient (fraction b) (power n))).getD (0, 0)
  else divide ((binary? (quotient (fraction b) (power maxPower))).getD (0, 0)) (n - maxPower)
termination_by n
decreasing_by simp only [maxPower] at *; omega

/-- The binary number that `digits × 10 ^ exponent` is read as: the digits are
rounded, and rounded again when they are scaled; none if that is too large. -/
def scaled? (digits : Nat) (exponent : Int) : Option (Nat × Int) := do
  let b ← binary? (digits, 1)
  if exponent < 0 then return divide b (-exponent).toNat
  else if exponent ≤ maxPower then binary? (product (fraction b) (power exponent.toNat))
  else none

def ofParts? (negative : Bool) (digits : Nat) (exponent : Int) : Option Decimal :=
  if digits = 0 then some ⟨negative, 0, 0⟩
  else (scaled? digits exponent).map fun (m, e) => shortest negative m e

/-- How many digits stand before the point; it is not positive for a number below
one tenth. -/
def point (d : Decimal) : Int :=
  (Nat.toDigits 10 d.digits).length + d.exponent

def sign (d : Decimal) : List Char :=
  if d.negative then ['-'] else []

/-- All digits, without an exponent. The point has a digit on both sides. -/
def plainText (d : Decimal) : List Char :=
  let ds := Nat.toDigits 10 d.digits
  let zeros (n : Int) : List Char := List.replicate n.toNat '0'
  d.sign ++
    if 0 ≤ d.exponent then ds ++ zeros d.exponent ++ ['.', '0']
    else if 0 < d.point then ds.take d.point.toNat ++ '.' :: ds.drop d.point.toNat
    else '0' :: '.' :: zeros (-d.point) ++ ds

/-- One digit before the point, which is left out if no digit follows, and an exponent
that always has a sign. -/
def scientificText (d : Decimal) : List Char :=
  let ds := Nat.toDigits 10 d.digits
  let fraction := match ds.drop 1 with
    | [] => []
    | more => '.' :: more
  let exponent := d.point - 1
  d.sign ++ ds.take 1 ++ fraction
    ++ 'e' :: (if exponent < 0 then '-' else '+') :: Nat.toDigits 10 exponent.natAbs

/-- Without an exponent where the point falls near the digits. -/
def text (d : Decimal) : List Char :=
  if d.digits = 0 ∨ (-5 < d.point ∧ d.point ≤ 16) then d.plainText else d.scientificText

end Decimal

end TableStore.Json
