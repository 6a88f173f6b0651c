/-!
# Bare text

Text that is not meant for a terminal holds no commands to one.  A command starts with the escape
character; what may follow it depends on the character after that.  Control characters other than
blanks go with the commands.

* `bare`: a text without commands and control characters.
-/

namespace FleetMatch.Text

/-- What is being read. -/
inductive Passage where
  | plain
  /-- The characters after an escape. -/
  | escape
  /-- The end of a short command. -/
  | short
  /-- Numbers, and the letter that ends them. -/
  | numbers
  /-- A title, which a bell ends. -/
  | title
  /-- A message to the terminal, which only an escape ends. -/
  | message
  deriving DecidableEq, Repr

namespace Passage

/-- A control character that is a blank. -/
def isBreak (c : Char) : Bool := c == '\t' || c == '\n' || c == '\x0c' || c == '\r'

/-- A character that is shown. -/
def isPlain (c : Char) : Bool := (0x20 ≤ c.toNat && c.toNat ≠ 0x7F) || isBreak c

/-- A character from one to another. -/
def within (first last c : Char) : Bool := first ≤ c && c ≤ last

/-- What follows the character after an escape. -/
def opened (c : Char) : Passage :=
  if within ' ' '/' c then .short
  else if c = '[' then .numbers
  else if c = ']' then .title
  else if c = 'P' || c = 'X' || c = '^' || c = '_' then .message
  else if within '0' '~' c then .plain
  else .escape

/-- What is being read after a character. -/
def next (p : Passage) (c : Char) : Passage :=
  if c = '\x1b' then .escape
  else if c = '\x18' || c = '\x1a' then .plain
  else
    match p with
    | .plain => .plain
    | .escape => if isBreak c then .plain else opened c
    | .short => if isBreak c || within '0' '~' c then .plain else .short
    | .numbers => if isBreak c || within '@' '~' c then .plain else .numbers
    | .title => if c = '\x07' then .plain else .title
    | .message => .message

/-- The character is shown. -/
def shows (p : Passage) (c : Char) : Bool :=
  match p with
  | .plain => isPlain c
  | .escape | .short | .numbers => isBreak c
  | .title | .message => false

/-- A text without what is not shown. -/
def read : Passage → List Char → List Char
  | _, [] => []
  | p, c :: rest => if p.shows c then c :: read (p.next c) rest else read (p.next c) rest

end Passage

/-- A text without commands to a terminal and without control characters other than blanks. -/
def bare (cs : List Char) : List Char := Passage.plain.read cs

end FleetMatch.Text
