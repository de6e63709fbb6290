import TableStore.Text.Escaped

/-! Bytes as pairs of hexadecimal digits. Writing uses lowercase digits, reading
takes both cases, and reading gives back the bytes that were written. -/
namespace TableStore.Text.Hex

def digit (n : UInt8) : Char :=
  Nat.digitChar n.toNat

/-- Two digits for each byte, the high one first. -/
def encode (bytes : List UInt8) : List Char :=
  bytes.flatMap fun b => [digit (b / 16), digit (b % 16)]

def encodeText (s : String) : String :=
  String.ofList (encode s.toUTF8.data.toList)

inductive Fault where
  | oddLength
  | badDigit (byte : UInt8) (index : Nat)
deriving DecidableEq

def Fault.message : Fault → String
  | .oddLength => "Odd number of digits"
  | .badDigit byte index =>
    "Invalid character " ++ escapeLone (Char.ofNat byte.toNat) ++ " at position " ++ toString index

def value? (b : UInt8) : Option UInt8 :=
  if 48 ≤ b && b ≤ 57 then some (b - 48)
  else if 97 ≤ b && b ≤ 102 then some (b - 87)
  else if 65 ≤ b && b ≤ 70 then some (b - 55)
  else none

def pairs (index : Nat) : List UInt8 → Except Fault (List UInt8)
  | [] => .ok []
  | [_] => .error .oddLength
  | high :: low :: rest =>
    match value? high, value? low with
    | none, _ => .error (.badDigit high index)
    | some _, none => .error (.badDigit low (index + 1))
    | some h, some l => (pairs (index + 2) rest).map fun bytes => (16 * h + l) :: bytes

/-- The bytes a text stands for. An odd length is found before any bad digit. -/
def decode (text : String) : Except Fault (List UInt8) :=
  let bytes := text.toUTF8.data.toList
  if bytes.length % 2 = 1 then .error .oddLength else pairs 0 bytes

end TableStore.Text.Hex
