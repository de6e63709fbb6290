import TableStore.Json

/-! Reading JSON text. A fault keeps the text that was still unread, from which
its line and column follow. -/
namespace TableStore.Json

inductive Cause where
  | endInList
  | endInObject
  | endInString
  | endInValue
  | noColon
  | noListEnd
  | noObjectEnd
  | badIdent
  | noValue
  | badEscape
  | badNumber
  | numberRange
  | controlCharacter
  | badName
  | loneSurrogate
  | shortEscape
  | trailingComma
  | trailingText
  | tooDeep
  | unsuited (reason : String)
deriving DecidableEq

def Cause.message : Cause → String
  | endInList => "EOF while parsing a list"
  | endInObject => "EOF while parsing an object"
  | endInString => "EOF while parsing a string"
  | endInValue => "EOF while parsing a value"
  | noColon => "expected `:`"
  | noListEnd => "expected `,` or `]`"
  | noObjectEnd => "expected `,` or `\x7d`"
  | badIdent => "expected ident"
  | noValue => "expected value"
  | badEscape => "invalid escape"
  | badNumber => "invalid number"
  | numberRange => "number out of range"
  | controlCharacter => "control character (\\u0000-\\u001F) found while parsing a string"
  | badName => "key must be a string"
  | loneSurrogate => "lone leading surrogate in hex escape"
  | shortEscape => "unexpected end of hex escape"
  | trailingComma => "trailing comma"
  | trailingText => "trailing characters"
  | tooDeep => "recursion limit exceeded"
  | unsuited reason => reason

/-- A cause, the text that was unread when it was found, and how many bytes the fault
lies inside that text. -/
structure ReadFault where
  cause : Cause
  unread : List Char
  inside : Nat
deriving DecidableEq

/-- The line and column of a fault in a text, both in bytes; a column counts from
the last line feed before the fault. -/
def ReadFault.position (f : ReadFault) (text : String) : Nat × Nat :=
  let bytes := text.toUTF8.data.toList
  let left := (String.ofList f.unread).utf8ByteSize
  let before := bytes.take (bytes.length - left + f.inside)
  (1 + before.count 10, (before.reverse.takeWhile (· != 10)).length)

def ReadFault.message (f : ReadFault) (text : String) : String :=
  let (line, column) := f.position text
  f.cause.message ++ " at line " ++ toString line ++ " column " ++ toString column

/-- A fault right before the unread text. -/
def failAt (cause : Cause) (unread : List Char) : Except ReadFault α :=
  .error ⟨cause, unread, 0⟩

/-- A fault in the first byte of the unread text. -/
def failIn (cause : Cause) (unread : List Char) : Except ReadFault α :=
  .error ⟨cause, unread, 1⟩

def isSpace (c : Char) : Bool :=
  c == ' ' || c == '\n' || c == '\t' || c == '\r'

def skipSpace (cs : List Char) : List Char :=
  cs.dropWhile isSpace

/-- Passes over the rest of a literal name and gives its value. -/
def ident (value : Json) : List Char → List Char → Except ReadFault (Json × List Char)
  | [], cs => .ok (value, cs)
  | _ :: _, [] => failAt .endInValue []
  | c :: name, d :: cs =>
    if c = d then ident value name cs else failIn .badIdent (d :: cs)

def hexValue? (c : Char) : Option Nat :=
  if c.isDigit then some (c.toNat - 48)
  else if 'a' ≤ c && c ≤ 'f' then some (c.toNat - 87)
  else if 'A' ≤ c && c ≤ 'F' then some (c.toNat - 55)
  else none

/-- The fault for text that should begin with four hexadecimal digits: they are four
bytes, whatever these hold. -/
def badHex (cs : List Char) : Except ReadFault α :=
  if (String.ofList cs).utf8ByteSize < 4 then failAt .endInString []
  else .error ⟨.badEscape, cs, 4⟩

def hexEscape : List Char → Except ReadFault (Nat × List Char)
  | a :: b :: c :: d :: rest =>
    match hexValue? a, hexValue? b, hexValue? c, hexValue? d with
    | some a, some b, some c, some d => .ok (((a * 16 + b) * 16 + c) * 16 + d, rest)
    | _, _, _, _ => badHex (a :: b :: c :: d :: rest)
  | cs => badHex cs

/-- The character of a numeric escape. Two surrogates in a row stand for one
character. -/
def unicode (cs : List Char) : Except ReadFault (Char × List Char) := do
  let (high, rest) ← hexEscape cs
  if high < 0xD800 ∨ 0xDFFF < high then return (Char.ofNat high, rest)
  else if 0xDC00 ≤ high then failAt .loneSurrogate rest
  else
    match rest with
    | '\\' :: 'u' :: rest =>
      let (low, rest) ← hexEscape rest
      if low < 0xDC00 ∨ 0xDFFF < low then failAt .loneSurrogate rest
      else return (Char.ofNat (0x10000 + (high - 0xD800) * 0x400 + (low - 0xDC00)), rest)
    | [] | ['\\'] => failAt .endInString []
    | '\\' :: rest => failIn .shortEscape rest
    | rest => failIn .shortEscape rest

def escape : List Char → Except ReadFault (Char × List Char)
  | [] => failAt .endInString []
  | c :: rest =>
    match c with
    | '"' => .ok ('"', rest)
    | '\\' => .ok ('\\', rest)
    | '/' => .ok ('/', rest)
    | 'b' => .ok ('\x08', rest)
    | 'f' => .ok ('\x0c', rest)
    | 'n' => .ok ('\n', rest)
    | 'r' => .ok ('\r', rest)
    | 't' => .ok ('\t', rest)
    | 'u' => unicode rest
    | _ => failIn .badEscape (c :: rest)

theorem badHex_ne_ok (cs : List Char) (a : α) : badHex cs ≠ .ok a := by
  unfold badHex
  split <;> nofun

theorem hexEscape_length {cs after : List Char} {n : Nat} (h : hexEscape cs = .ok (n, after)) :
    after.length < cs.length := by
  unfold hexEscape at h
  split at h
  · split at h
    · cases h; simp only [List.length_cons]; omega
    · exact absurd h (badHex_ne_ok _ _)
  · exact absurd h (badHex_ne_ok _ _)

theorem unicode_length {cs after : List Char} {c : Char}
    (h : unicode cs = .ok (c, after)) : after.length < cs.length := by
  unfold unicode at h
  cases hh : hexEscape cs with
  | error e => rw [hh] at h; cases h
  | ok p =>
    obtain ⟨high, rest⟩ := p
    rw [hh] at h
    have hr := hexEscape_length hh
    simp only [bind, Except.bind] at h
    split at h
    · cases h; exact hr
    · split at h
      · cases h
      · split at h
        · next tail =>
          cases ht : hexEscape tail with
          | error e => rw [ht] at h; cases h
          | ok q =>
            rw [ht] at h
            have hq := hexEscape_length ht
            simp only at h
            split at h
            · cases h
            · simp only [pure, Except.pure, Except.ok.injEq, Prod.mk.injEq] at h
              obtain ⟨_, rfl⟩ := h
              simp only [List.length_cons] at hr
              omega
        all_goals cases h

theorem escape_length {cs after : List Char} {c : Char}
    (h : escape cs = .ok (c, after)) : after.length < cs.length := by
  unfold escape at h
  split at h
  · cases h
  · next d rest =>
    split at h
    case h_9 => exact Nat.lt_succ_of_lt (unicode_length h)
    case h_10 => cases h
    all_goals cases h; simp

def stringRest (cs : List Char) : Except ReadFault (List Char × List Char) :=
  match cs with
  | [] => failAt .endInString []
  | c :: rest =>
    if c = '"' then .ok ([], rest)
    else if c = '\\' then
      match _h : escape rest with
      | .error fault => .error fault
      | .ok (d, after) => (stringRest after).map fun (s, after) => (d :: s, after)
    else if c.toNat < 0x20 then failIn .controlCharacter (c :: rest)
    else (stringRest rest).map fun (s, after) => (c :: s, after)
termination_by cs.length
decreasing_by
  · have := escape_length _h
    simp only [List.length_cons]
    omega
  · simp

def digitsValue (ds : List Char) : Nat :=
  ds.foldl (fun n c => 10 * n + (c.toNat - 48)) 0

/-- The integers that keep their value: those of 64 bits with or without a sign. -/
def isExact (negative : Bool) (n : Nat) : Bool :=
  if negative then 0 < n && n ≤ Nat.pow 2 63 else n < Nat.pow 2 64

/-- Appends digits to a number as long as it fits in 64 bits. The first digit that
does not fit is left out with all that follow; their number is given too. -/
def appendDigits (n : Nat) : List Char → Nat × Nat
  | [] => (n, 0)
  | c :: rest =>
    let longer := 10 * n + (c.toNat - 48)
    if longer < Nat.pow 2 64 then appendDigits longer rest else (n, rest.length + 1)

/-- The number with these parts; `none` for an exponent that is not written. -/
def numberOf (negative : Bool) (whole fraction : List Char) (exponent : Option Int)
    (after : List Char) : Except ReadFault (Number × List Char) :=
  let (n, scale) := appendDigits 0 whole
  if fraction.isEmpty ∧ exponent.isNone ∧ scale = 0 ∧ isExact negative n then
    .ok (.integer (if negative then -(n : Int) else n), after)
  else
    let (digits, left) := appendDigits n fraction
    let exponent := exponent.getD 0 + scale + left - fraction.length
    match Decimal.ofParts? negative digits exponent with
    | some d => .ok (.decimal d, after)
    | none => failAt .numberRange after

def maxExponent : Nat := 2147483647

/-- The value of the digits of an exponent, or what follows the first digit that makes
it too large. -/
def exponentValue (n : Nat) : List Char → Except (List Char) Nat
  | [] => .ok n
  | c :: rest =>
    let longer := 10 * n + (c.toNat - 48)
    if longer ≤ maxExponent then exponentValue longer rest else .error rest

def exponentRest (cs : List Char) : Except ReadFault (Bool × List Char × List Char) :=
  let (negative, cs) := match cs with
    | '+' :: rest => (false, rest)
    | '-' :: rest => (true, rest)
    | _ => (false, cs)
  match cs with
  | [] => failAt .endInValue []
  | c :: rest =>
    if c.isDigit then .ok (negative, cs.takeWhile Char.isDigit, cs.dropWhile Char.isDigit)
    else failIn .badNumber (c :: rest)

/-- Reads what follows the digits before the point of a number. A number whose exponent
is too large is zero if its digits are, or if the exponent is negative. -/
def numberRest (negative : Bool) (whole cs : List Char) :
    Except ReadFault (Number × List Char) := do
  let (fraction, cs) ← match cs with
    | '.' :: rest =>
      match rest.takeWhile Char.isDigit, rest.dropWhile Char.isDigit with
      | [], [] => failIn .endInValue []
      | [], after => failIn .badNumber after
      | digits, after => .ok (digits, after)
    | _ => .ok ([], cs)
  match cs with
  | 'e' :: rest | 'E' :: rest =>
    let (small, digits, after) ← exponentRest rest
    match exponentValue 0 digits with
    | .ok n => numberOf negative whole fraction (some (if small then -(n : Int) else n)) after
    | .error left =>
      if small ∨ digitsValue (whole ++ fraction) = 0 then
        .ok (.decimal ⟨negative, 0, 0⟩, after)
      else failAt .numberRange (left ++ after)
  | _ => numberOf negative whole fraction none cs

/-- Reads a number after its sign. A zero is followed by no other digit. -/
def unsignedNumber (negative : Bool) : List Char → Except ReadFault (Number × List Char)
  | [] => failAt .endInValue []
  | c :: rest =>
    if c = '0' then
      match rest with
      | d :: _ => if d.isDigit then failIn .badNumber rest
        else numberRest negative ['0'] rest
      | [] => numberRest negative ['0'] rest
    else if c.isDigit then
      numberRest negative (c :: rest.takeWhile Char.isDigit) (rest.dropWhile Char.isDigit)
    else failIn .badNumber (c :: rest)

def colon (cs : List Char) : Except ReadFault (List Char) :=
  match skipSpace cs with
  | ':' :: rest => .ok rest
  | [] => failIn .endInObject []
  | rest => failIn .noColon rest

/-- Looks for the next item of a list: none at its end, which is passed over, or
the text that begins with the item. -/
def nextItem (first : Bool) (cs : List Char) : Except ReadFault (Bool × List Char) :=
  match skipSpace cs with
  | [] => failIn .endInList []
  | ']' :: rest => .ok (false, rest)
  | c :: rest =>
    if first then .ok (true, c :: rest)
    else if c = ',' then
      match skipSpace rest with
      | ']' :: rest => failIn .trailingComma (']' :: rest)
      | [] => failIn .endInValue []
      | rest => .ok (true, rest)
    else failIn .noListEnd (c :: rest)

def nextMember (first : Bool) (cs : List Char) : Except ReadFault (Bool × List Char) :=
  match skipSpace cs with
  | [] => failIn .endInObject []
  | '\x7d' :: rest => .ok (false, rest)
  | c :: rest =>
    if first then
      if c = '"' then .ok (true, rest) else failIn .badName (c :: rest)
    else if c = ',' then
      match skipSpace rest with
      | '"' :: rest => .ok (true, rest)
      | '\x7d' :: rest => failIn .trailingComma ('\x7d' :: rest)
      | [] => failIn .endInValue []
      | rest => failIn .badName rest
    else failIn .noObjectEnd (c :: rest)

mutual

/-- Reads a value in which at most `depth` lists and objects are nested. The fuel
bounds the steps; twice the length of the text is enough. -/
def value (fuel depth : Nat) (cs : List Char) :
    Except ReadFault (Json × List Char) :=
  match fuel with
  | 0 => failIn .tooDeep cs
  | fuel + 1 =>
    match skipSpace cs with
    | [] => failIn .endInValue []
    | 'n' :: rest => ident .null "ull".toList rest
    | 't' :: rest => ident (.bool true) "rue".toList rest
    | 'f' :: rest => ident (.bool false) "alse".toList rest
    | '"' :: rest =>
      (stringRest rest).map fun (s, after) => (.string (String.ofList s), after)
    | '-' :: rest => (unsignedNumber true rest).map fun (n, after) => (.number n, after)
    | '[' :: rest =>
      match depth with
      | 0 => failIn .tooDeep ('[' :: rest)
      | depth + 1 =>
        (items fuel depth true rest).map fun (vs, after) => (.array vs, after)
    | '\x7b' :: rest =>
      match depth with
      | 0 => failIn .tooDeep ('\x7b' :: rest)
      | depth + 1 =>
        (members fuel depth true rest).map fun (ms, after) => (ofMembers ms, after)
    | c :: rest =>
      if c.isDigit then
        (unsignedNumber false (c :: rest)).map fun (n, after) => (.number n, after)
      else failIn .noValue (c :: rest)

def items (fuel depth : Nat) (first : Bool) (cs : List Char) :
    Except ReadFault (List Json × List Char) :=
  match fuel with
  | 0 => failIn .tooDeep cs
  | fuel + 1 => do
    match ← nextItem first cs with
    | (false, after) => return ([], after)
    | (true, cs) =>
      let (v, cs) ← value fuel depth cs
      let (vs, cs) ← items fuel depth false cs
      return (v :: vs, cs)

def members (fuel depth : Nat) (first : Bool) (cs : List Char) :
    Except ReadFault (List (String × Json) × List Char) :=
  match fuel with
  | 0 => failIn .tooDeep cs
  | fuel + 1 => do
    match ← nextMember first cs with
    | (false, after) => return ([], after)
    | (true, cs) =>
      let (name, cs) ← stringRest cs
      let cs ← colon cs
      let (v, cs) ← value fuel depth cs
      let (ms, cs) ← members fuel depth false cs
      return ((String.ofList name, v) :: ms, cs)

end

def fuelFor (cs : List Char) : Nat :=
  2 * cs.length + 2

def maxDepth : Nat := 127

def finish (r : α × List Char) : Except ReadFault α :=
  match skipSpace r.2 with
  | [] => .ok r.1
  | rest => failIn .trailingText rest

def read (text : String) : Except ReadFault Json := do
  finish (← value (fuelFor text.toList) maxDepth text.toList)

end TableStore.Json
