/-
  GuestHost.Json.Value — JSON documents with whole numbers, and their compact text.

  The text has no blanks; the fields of an object stand in their order. In a string the quotation mark, the
  backslash and the control characters are escaped, the five that have one by their short form; every other
  character stands for itself.
-/

namespace GuestHost

inductive Json where
  | null
  | bool (b : Bool)
  | num (n : Int)
  | str (s : String)
  | arr (items : List Json)
  | obj (fields : List (String × Json))
  deriving Repr, Inhabited

namespace Json

/-! ## Text -/

/-- A character of a string, escaped where it has to be. -/
def escape (c : Char) : List Char :=
  match c with
  | '"' => ['\\', '"']
  | '\\' => ['\\', '\\']
  | '\n' => ['\\', 'n']
  | '\r' => ['\\', 'r']
  | '\t' => ['\\', 't']
  | '\x08' => ['\\', 'b']
  | '\x0c' => ['\\', 'f']
  | c =>
    if c.toNat < 0x20 then ['\\', 'u', '0', '0', Nat.digitChar (c.toNat / 16), Nat.digitChar (c.toNat % 16)] else [c]

def quote (s : String) : List Char := '"' :: s.toList.flatMap escape ++ ['"']

mutual

def chars : Json → List Char
  | null => "null".toList
  | bool true => "true".toList
  | bool false => "false".toList
  | num n => (toString n).toList
  | str s => quote s
  | arr [] => ['[', ']']
  | arr (x :: xs) => '[' :: chars x ++ itemChars xs
  | obj [] => ['\x7b', '\x7d']
  | obj ((k, v) :: fields) => '\x7b' :: quote k ++ ':' :: chars v ++ fieldChars fields

/-- The characters of the items after the first. -/
def itemChars : List Json → List Char
  | [] => [']']
  | x :: xs => ',' :: chars x ++ itemChars xs

/-- The characters of the fields after the first. -/
def fieldChars : List (String × Json) → List Char
  | [] => ['\x7d']
  | (k, v) :: fields => ',' :: quote k ++ ':' :: chars v ++ fieldChars fields

end

def text (j : Json) : String := String.ofList j.chars

/-! ## Access -/

/-- The value of a field. A field that is null counts as absent. -/
def field? (j : Json) (key : String) : Option Json :=
  match j with
  | obj fields =>
    match fields.lookup key with
    | some null => none
    | found => found
  | _ => none

def fields : Json → List (String × Json)
  | obj fields => fields
  | _ => []

def items : Json → List Json
  | arr items => items
  | _ => []

def string? : Json → Option String
  | str s => some s
  | _ => none

def int? : Json → Option Int
  | num n => some n
  | _ => none

def isTrue : Json → Bool
  | bool b => b
  | _ => false

/-- Whether a field is there and true. -/
def flag (j : Json) (key : String) : Bool := ((j.field? key).map isTrue).getD false

def list (j : Json) (key : String) : List Json := ((j.field? key).map items).getD []

def strings (j : Json) (key : String) : List String := (j.list key).filterMap string?

def nat? (j : Json) (key : String) : Option Nat := ((j.field? key).bind int?).map Int.toNat

end Json

end GuestHost
