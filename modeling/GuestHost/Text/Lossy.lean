/-
  GuestHost.Text.Lossy — reading bytes as UTF-8 where they are, with one replacement character for each
  maximal ill-formed part.

  The decoder goes over the bytes once. It holds the part of a character that it has read (`Open`), and the
  range in which the next byte has to lie; the ranges leave out overlong forms, surrogates and what lies
  beyond the last code point. A byte out of range ends the part, which is replaced, and is read again as the
  start of something new.
-/

namespace GuestHost.Lossy

/-- The character that stands for what is ill-formed. -/
def replacement : Char := '\uFFFD'

/-- A character begun: its bits so far, how many more bytes it takes, and the range of the next one. -/
structure Open where
  bits : Nat
  more : Nat
  low : UInt8 := 0x80
  high : UInt8 := 0xBF

inductive Lead where
  | whole (c : Char)
  | opens (o : Open)
  | bad

def lead (b : UInt8) : Lead :=
  if b < 0x80 then .whole (Char.ofNat b.toNat)
  else if b < 0xC2 then .bad
  else if b < 0xE0 then .opens { bits := b.toNat - 0xC0, more := 1 }
  else if b = 0xE0 then .opens { bits := 0, more := 2, low := 0xA0 }
  else if b = 0xED then .opens { bits := 0xD, more := 2, high := 0x9F }
  else if b < 0xF0 then .opens { bits := b.toNat - 0xE0, more := 2 }
  else if b = 0xF0 then .opens { bits := 0, more := 3, low := 0x90 }
  else if b < 0xF4 then .opens { bits := b.toNat - 0xF0, more := 3 }
  else if b = 0xF4 then .opens { bits := 4, more := 3, high := 0x8F }
  else .bad

/-- The characters of the bytes, where `o` is a character that was begun before them. -/
def chars : Option Open → List UInt8 → List Char
  | none, [] => []
  | some _, [] => [replacement]
  | none, b :: bs =>
    match lead b with
    | .whole c => c :: chars none bs
    | .opens o => chars (some o) bs
    | .bad => replacement :: chars none bs
  | some o, b :: bs =>
    if o.low ≤ b ∧ b ≤ o.high then
      let bits := o.bits * 64 + (b.toNat - 0x80)
      if o.more = 1 then Char.ofNat bits :: chars none bs else chars (some { bits, more := o.more - 1 }) bs
    else
      replacement ::
        match lead b with
        | .whole c => c :: chars none bs
        | .opens o => chars (some o) bs
        | .bad => replacement :: chars none bs

end GuestHost.Lossy

namespace GuestHost

def lossyText (bs : List UInt8) : String := String.ofList (Lossy.chars none bs)

def utf8 (s : String) : List UInt8 := s.toUTF8.data.toList

end GuestHost
