import TableStore.Json.Reader

/-! Passing over a value that nobody asked for. Lists and objects may nest to any depth
in it, escapes may denote lone surrogates, and numbers may be of any size. -/
namespace TableStore.Json

def skipExponent (cs : List Char) : Except ReadFault (List Char) :=
  let cs := match cs with
    | '+' :: rest | '-' :: rest => rest
    | _ => cs
  match cs with
  | c :: rest => if c.isDigit then .ok (rest.dropWhile Char.isDigit) else failIn .badNumber cs
  | [] => failAt .badNumber []

def skipScale : List Char → Except ReadFault (List Char)
  | 'e' :: rest | 'E' :: rest => skipExponent rest
  | cs => .ok cs

def skipFraction : List Char → Except ReadFault (List Char)
  | '.' :: c :: rest =>
    if c.isDigit then skipScale (rest.dropWhile Char.isDigit) else failIn .badNumber (c :: rest)
  | ['.'] => failAt .badNumber []
  | cs => skipScale cs

def skipNumber : List Char → Except ReadFault (List Char)
  | '0' :: d :: rest =>
    if d.isDigit then failIn .badNumber (d :: rest) else skipFraction (d :: rest)
  | c :: rest =>
    if c.isDigit then skipFraction (rest.dropWhile Char.isDigit) else failIn .badNumber (c :: rest)
  | [] => failAt .badNumber []

def skipEscape : List Char → Except ReadFault (List Char)
  | [] => failAt .endInString []
  | 'u' :: rest => (hexEscape rest).map Prod.snd
  | c :: rest => if "\"\\/bfnrt".toList.contains c then .ok rest else failIn .badEscape (c :: rest)

theorem skipEscape_length {cs after : List Char} (h : skipEscape cs = .ok after) :
    after.length < cs.length := by
  unfold skipEscape at h
  split at h
  · cases h
  · next rest =>
    cases hh : hexEscape rest with
    | error e => rw [hh] at h; cases h
    | ok p =>
      rw [hh] at h
      cases h
      exact Nat.lt_succ_of_lt (hexEscape_length (n := p.1) hh)
  · split at h
    · cases h; simp
    · cases h

def skipString (cs : List Char) : Except ReadFault (List Char) :=
  match cs with
  | [] => failAt .endInString []
  | c :: rest =>
    if c = '"' then .ok rest
    else if c = '\\' then
      match _h : skipEscape rest with
      | .error fault => .error fault
      | .ok after => skipString after
    else if c.toNat < 0x20 then failAt .controlCharacter (c :: rest)
    else skipString rest
termination_by cs.length
decreasing_by
  · have := skipEscape_length _h
    simp only [List.length_cons]
    omega
  · simp

/-- What a value lies in. -/
inductive Enclosure where
  | list
  | object
deriving DecidableEq

namespace Enclosure

def close : Enclosure → Char
  | list => ']'
  | object => '\x7d'

def unclosed : Enclosure → Cause
  | list => .endInList
  | object => .endInObject

def unseparated : Enclosure → Cause
  | list => .noListEnd
  | object => .noObjectEnd

end Enclosure

/-- Passes over the ends of enclosures, innermost first, and over the comma before the
next value; a comma or an end must come if `separated`. No enclosures are left at the
end of the outermost one. -/
def skipEnds (separated : Bool) :
    List Enclosure → List Char → Except ReadFault (List Enclosure × List Char)
  | [], cs => .ok ([], cs)
  | e :: outer, cs =>
    match skipSpace cs with
    | [] => failAt e.unclosed []
    | c :: rest =>
      if c = e.close then skipEnds true outer rest
      else if !separated then .ok (e :: outer, c :: rest)
      else if c = ',' then .ok (e :: outer, rest)
      else failIn e.unseparated (c :: rest)

def skipName (cs : List Char) : Except ReadFault (List Char) :=
  match skipSpace cs with
  | '"' :: rest => do colon (← skipString rest)
  | [] => failAt .endInObject []
  | rest => failIn .badName rest

/-- Passes over the beginning of a value: all of it, or the bracket that opens it. -/
def skipStart (cs : List Char) : Except ReadFault (Option Enclosure × List Char) :=
  let whole (r : Except ReadFault (List Char)) := r.map fun after => (none, after)
  let named (name : String) (cs : List Char) := whole ((ident .null name.toList cs).map Prod.snd)
  match skipSpace cs with
  | [] => failAt .endInValue []
  | '[' :: rest => .ok (some .list, rest)
  | '\x7b' :: rest => .ok (some .object, rest)
  | 'n' :: rest => named "ull" rest
  | 't' :: rest => named "rue" rest
  | 'f' :: rest => named "alse" rest
  | '"' :: rest => whole (skipString rest)
  | '-' :: rest => whole (skipNumber rest)
  | c :: rest => if c.isDigit then whole (skipNumber (c :: rest)) else failIn .noValue (c :: rest)

/-- Passes over a value and what is left of its enclosures, innermost first. The fuel
bounds the values; the length of the text is enough. -/
def skipWithin (fuel : Nat) (outer : List Enclosure) (cs : List Char) :
    Except ReadFault (List Char) :=
  match fuel with
  | 0 => failIn .tooDeep cs
  | fuel + 1 => do
    let (opened, cs) ← skipStart cs
    match ← skipEnds opened.isNone (opened.toList ++ outer) cs with
    | ([], after) => return after
    | (.list :: outer, cs) => skipWithin fuel (.list :: outer) cs
    | (.object :: outer, cs) => skipWithin fuel (.object :: outer) (← skipName cs)

def skipValue (cs : List Char) : Except ReadFault (List Char) :=
  skipWithin (cs.length + 1) [] cs

end TableStore.Json
