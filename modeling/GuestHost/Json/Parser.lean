/-
  GuestHost.Json.Parser — reading JSON documents with whole numbers.

  The parser goes over a list of characters and gives the document with what is left. Each call takes one
  unit of fuel; a document of `n` characters nests less than `n` calls deep.
-/

import GuestHost.Json.Value

namespace GuestHost.Json

def skipBlank (cs : List Char) : List Char :=
  cs.dropWhile fun c => c == ' ' || c == '\n' || c == '\r' || c == '\t'

def hexDigit? (c : Char) : Option Nat :=
  if '0' ≤ c ∧ c ≤ '9' then some (c.toNat - '0'.toNat)
  else if 'a' ≤ c ∧ c ≤ 'f' then some (c.toNat - 'a'.toNat + 10)
  else if 'A' ≤ c ∧ c ≤ 'F' then some (c.toNat - 'A'.toNat + 10)
  else none

def hexWord? (a b c d : Char) : Option Nat := do
  return (← hexDigit? a) * 4096 + (← hexDigit? b) * 256 + (← hexDigit? c) * 16 + (← hexDigit? d)

/-- The rest of a string after its opening mark; the characters read so far stand in reverse. A character
beyond the sixteen-bit range is written as two escapes. -/
def parseString : List Char → List Char → Option (String × List Char)
  | seen, '"' :: cs => some (String.ofList seen.reverse, cs)
  | seen, '\\' :: '"' :: cs => parseString ('"' :: seen) cs
  | seen, '\\' :: '\\' :: cs => parseString ('\\' :: seen) cs
  | seen, '\\' :: '/' :: cs => parseString ('/' :: seen) cs
  | seen, '\\' :: 'n' :: cs => parseString ('\n' :: seen) cs
  | seen, '\\' :: 'r' :: cs => parseString ('\r' :: seen) cs
  | seen, '\\' :: 't' :: cs => parseString ('\t' :: seen) cs
  | seen, '\\' :: 'b' :: cs => parseString ('\x08' :: seen) cs
  | seen, '\\' :: 'f' :: cs => parseString ('\x0c' :: seen) cs
  | seen, '\\' :: 'u' :: a :: b :: c :: d :: '\\' :: 'u' :: e :: f :: g :: h :: cs =>
    match hexWord? a b c d, hexWord? e f g h with
    | some high, some low =>
      if 0xD800 ≤ high ∧ high < 0xDC00 ∧ 0xDC00 ≤ low ∧ low < 0xE000 then
        parseString (Char.ofNat (0x10000 + (high - 0xD800) * 0x400 + (low - 0xDC00)) :: seen) cs
      else if 0xD800 ≤ high ∧ high < 0xE000 then none
      else parseString (Char.ofNat high :: seen) ('\\' :: 'u' :: e :: f :: g :: h :: cs)
    | _, _ => none
  | seen, '\\' :: 'u' :: a :: b :: c :: d :: cs =>
    match hexWord? a b c d with
    | some n => if 0xD800 ≤ n ∧ n < 0xE000 then none else parseString (Char.ofNat n :: seen) cs
    | none => none
  | _, '\\' :: _ => none
  | seen, c :: cs => if c.toNat < 0x20 then none else parseString (c :: seen) cs
  | _, [] => none

def decimal (cs : List Char) : Nat := cs.foldl (fun n c => 10 * n + (c.toNat - '0'.toNat)) 0

def parseDigits (negative : Bool) (cs : List Char) : Option (Json × List Char) :=
  let digits := cs.takeWhile Char.isDigit
  let rest := cs.dropWhile Char.isDigit
  if digits.isEmpty then none
  else if rest.head?.any (fun c => c == '.' || c == 'e' || c == 'E') then none
  else some (num (if negative then -(decimal digits : Int) else decimal digits), rest)

mutual

/-- The document at the front of the characters. -/
def parseValue : Nat → List Char → Option (Json × List Char)
  | 0, _ => none
  | fuel + 1, cs =>
    match skipBlank cs with
    | 'n' :: 'u' :: 'l' :: 'l' :: rest => some (null, rest)
    | 't' :: 'r' :: 'u' :: 'e' :: rest => some (bool true, rest)
    | 'f' :: 'a' :: 'l' :: 's' :: 'e' :: rest => some (bool false, rest)
    | '"' :: rest => (parseString [] rest).map fun (s, rest) => (str s, rest)
    | '-' :: rest => parseDigits true rest
    | '[' :: rest =>
      match skipBlank rest with
      | ']' :: rest => some (arr [], rest)
      | rest => (parseItems fuel rest).map fun (xs, rest) => (arr xs, rest)
    | '\x7b' :: rest =>
      match skipBlank rest with
      | '\x7d' :: rest => some (obj [], rest)
      | rest => (parseFields fuel rest).map fun (fs, rest) => (obj fs, rest)
    | cs => parseDigits false cs

/-- The items of an array and its end. -/
def parseItems : Nat → List Char → Option (List Json × List Char)
  | 0, _ => none
  | fuel + 1, cs =>
    match parseValue fuel cs with
    | none => none
    | some (x, rest) =>
      match skipBlank rest with
      | ']' :: rest => some ([x], rest)
      | ',' :: rest => (parseItems fuel rest).map fun (xs, rest) => (x :: xs, rest)
      | _ => none

/-- The fields of an object and its end. -/
def parseFields : Nat → List Char → Option (List (String × Json) × List Char)
  | 0, _ => none
  | fuel + 1, cs =>
    match skipBlank cs with
    | '"' :: rest =>
      match parseString [] rest with
      | none => none
      | some (k, rest) =>
        match skipBlank rest with
        | ':' :: rest =>
          match parseValue fuel rest with
          | none => none
          | some (v, rest) =>
            match skipBlank rest with
            | '\x7d' :: rest => some ([(k, v)], rest)
            | ',' :: rest => (parseFields fuel rest).map fun (fs, rest) => ((k, v) :: fs, rest)
            | _ => none
        | _ => none
    | _ => none

end

/-- The document that a text is, if it is one. -/
def parse? (s : String) : Option Json :=
  let cs := s.toList
  match parseValue (cs.length + 1) cs with
  | some (j, rest) => if (skipBlank rest).isEmpty then some j else none
  | none => none

end GuestHost.Json
