/-!
# What a terminal prints of a text

A terminal prints most characters of a text. On the control characters it acts, and so it does on
the sequences that an escape character opens. `Terminal.printed` is a text without both; those
control characters that are blanks stay.
-/

set_option autoImplicit false

namespace Findings.Text.Terminal

/-- What the characters that a terminal gets belong to. -/
inductive Mode where
  /-- No sequence. -/
  | text
  /-- A sequence of which only the escape character has come. -/
  | escape
  /-- A short sequence, up to its final character. -/
  | short
  /-- A control sequence, up to its final character. -/
  | control
  /-- The start of a device control string. -/
  | device
  /-- The parameters of a device control string. -/
  | parameters
  /-- What may stand between the parameters of a device control string and its final character. -/
  | intermediate
  /-- A string for the device, or one that is passed over. -/
  | string
  /-- A command to the operating system. -/
  | command
deriving DecidableEq, Repr

def isBlank (c : Char) : Bool := c = '\t' || c = '\n' || c = '\x0C' || c = '\r'

/-- Whether a string for the device ends at a character: some byte of it is 9C, the terminator of
strings, be it in the middle of the character. -/
def endsString (c : Char) : Bool := (String.utf8EncodeChar c).contains 0x9C

namespace Mode

/-- Whether a blank belongs to what is being read. Anywhere else it is printed. -/
def takesBlanks : Mode → Bool
  | text | escape | short | control => false
  | device | parameters | intermediate | string | command => true

/-- Whether a character is printed. -/
def prints (m : Mode) (c : Char) : Bool :=
  if isBlank c then !m.takesBlanks else m = text && ' ' ≤ c && c ≠ '\x7F'

/-- What comes after a character that does not open or cancel a sequence. -/
def step (m : Mode) (c : Char) : Mode :=
  match m with
  | text => text
  | escape =>
    if c = '[' then control
    else if c = ']' then command
    else if c = 'P' then device
    else if c = 'X' || c = '^' || c = '_' then string
    else if ' ' ≤ c && c ≤ '/' then short
    else if '0' ≤ c && c ≤ '~' then text
    else escape
  | short => if '0' ≤ c && c ≤ '~' then text else short
  | control => if '@' ≤ c && c ≤ '~' then text else control
  | device =>
    if ' ' ≤ c && c ≤ '/' then intermediate
    else if '0' ≤ c && c ≤ '?' then parameters
    else if '@' ≤ c && c ≤ '~' then string
    else device
  | parameters =>
    if ' ' ≤ c && c ≤ '/' then intermediate
    else if '<' ≤ c && c ≤ '~' then string
    else parameters
  | intermediate => if '0' ≤ c && c ≤ '~' then string else intermediate
  | string => if endsString c then text else string
  | command => if c = '\x07' then text else command

/-- What comes after a character. An escape character opens a sequence wherever it stands, and two
control characters cancel one, as does a blank that is printed. -/
def next (m : Mode) (c : Char) : Mode :=
  if c = '\x1B' then escape
  else if c = '\x18' || c = '\x1A' || m.prints c then text
  else m.step c

/-- The characters that are printed. -/
def printed (m : Mode) : List Char → List Char
  | [] => []
  | c :: cs => if m.prints c then c :: (m.next c).printed cs else (m.next c).printed cs

end Mode

/-- What a terminal prints of a text. -/
def printed (s : String) : String := String.ofList (Mode.text.printed s.toList)

end Findings.Text.Terminal
