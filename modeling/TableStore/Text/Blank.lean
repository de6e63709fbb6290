/-! Blank characters, and cutting them off the ends of a text. A blank is a
code point with Unicode's White_Space property. -/
namespace TableStore.Text

/-- The 25 code points with the White_Space property. -/
def isBlank (c : Char) : Bool :=
  let n := c.toNat
  (9 ≤ n && n ≤ 13) || n == 0x20 || n == 0x85 || n == 0xA0 || n == 0x1680 ||
    (0x2000 ≤ n && n ≤ 0x200A) || n == 0x2028 || n == 0x2029 || n == 0x202F ||
    n == 0x205F || n == 0x3000

def dropWhileEnd (p : α → Bool) : List α → List α
  | [] => []
  | a :: rest =>
    match dropWhileEnd p rest with
    | [] => if p a then [] else [a]
    | kept => a :: kept

def strip (p : α → Bool) (l : List α) : List α :=
  dropWhileEnd p (l.dropWhile p)

def trim (s : String) : String :=
  String.ofList (strip isBlank s.toList)

/-- The first blank-separated piece of a text, empty if there is none, and
what follows it. -/
def nextPiece (cs : List Char) : List Char × List Char :=
  (cs.dropWhile isBlank).span fun c => !isBlank c

end TableStore.Text
