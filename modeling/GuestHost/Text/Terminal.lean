/-
  GuestHost.Text.Terminal — text without what a terminal would take for a command.

  Control sequences and strings are dropped, and so are single control characters, blanks apart. A state says
  how the characters that follow an escape are read; it tells apart only what has a different end.

  A blank shows inside a sequence too, and from there text shows on, up to the next control character that is
  no blank. There the sequence is taken up where it stood, unless a character beyond ASCII has given it up.
-/

namespace GuestHost.Terminal

/-- Where in a control sequence or string the text is. -/
inductive State where
  | ground
  | escape
  /-- After an escape and a character that has another one follow. -/
  | escapeIntermediate
  | control
  /-- At the head of a device control string. -/
  | device
  | deviceParameter
  | deviceIntermediate
  /-- In an operating system command. -/
  | command
  /-- In a string of another kind. -/
  | message
  deriving DecidableEq, Repr

def isBlank (c : Char) : Bool := c == '\t' || c == '\n' || c == '\x0C' || c == '\r'

def between (low high c : Char) : Bool := decide (low ≤ c) && decide (c ≤ high)

def isGraphic (c : Char) : Bool := between ' ' '~' c

/-- Whether a character lies beyond ASCII. -/
def isWide (c : Char) : Bool := decide ('\x7F' < c)

/-- Whether the string terminator is among the bytes of a character. -/
def holdsTerminator (c : Char) : Bool := (String.utf8EncodeChar c).contains 0x9C

/-- The state after a character that does not show, other than the three that count in every state. -/
def State.after (s : State) (c : Char) : State :=
  match s with
  | ground => ground
  | escape =>
    if between ' ' '/' c then escapeIntermediate
    else if c == 'P' then device
    else if c == '[' then control
    else if c == ']' then command
    else if c == 'X' || c == '^' || c == '_' then message
    else if between '0' '~' c then ground
    else escape
  | escapeIntermediate => if between '0' '~' c then ground else escapeIntermediate
  | control => if between '@' '~' c then ground else control
  | device =>
    if between ' ' '/' c then deviceIntermediate
    else if between '0' '?' c then deviceParameter
    else if between '@' '~' c then message
    else device
  | deviceParameter =>
    if between ' ' '/' c then deviceIntermediate
    else if between '<' '~' c then message
    else deviceParameter
  | deviceIntermediate => if between '0' '~' c then message else deviceIntermediate
  | command => if c == '\x07' then ground else command
  | message => if holdsTerminator c then ground else message

/-- Whether a state acts on single controls. The strings take them for their own. -/
def State.actsOnControls : State → Bool
  | ground | escape | escapeIntermediate | control => true
  | _ => false

/-- The characters of a text that show, from a state on. The flag tells that text has shown since the last
control character, whatever the state. -/
def shown : State → Bool → List Char → List Char
  | _, _, [] => []
  | s, showing, c :: cs =>
    let free := showing || s == .ground
    if c == '\x18' || c == '\x1A' then shown .ground false cs
    else if c == '\x1B' then shown .escape false cs
    else if free && isWide c then c :: shown .ground true cs
    else if (free && isGraphic c) || (s.actsOnControls && isBlank c) then c :: shown s true cs
    else shown (s.after c) false cs

end GuestHost.Terminal

namespace GuestHost

def plainText (s : String) : String := String.ofList (Terminal.shown .ground false s.toList)

end GuestHost
