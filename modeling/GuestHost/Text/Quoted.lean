/-
  GuestHost.Text.Quoted — text in quotation marks in which every character can be seen.

  The quotation mark, the backslash, the tabulator and the two line ends have short escapes, as has the
  character zero; any other character that does not show on its own is written as its code point.
-/

import GuestHost.Text.Hidden

namespace GuestHost

/-- A character as it stands between quotation marks. -/
def visible (c : Char) : List Char :=
  match c with
  | '\x00' => ['\\', '0']
  | '\t' => ['\\', 't']
  | '\r' => ['\\', 'r']
  | '\n' => ['\\', 'n']
  | '\\' => ['\\', '\\']
  | '"' => ['\\', '"']
  | c => if isHidden c then ['\\', 'u', '\x7b'] ++ Nat.toDigits 16 c.toNat ++ ['\x7d'] else [c]

def quoted (s : String) : String := String.ofList ('"' :: s.toList.flatMap visible ++ ['"'])

end GuestHost
