import FleetMatch.Text.Unprintable

/-!
# Quoted text

The form in which a text stands in descriptions and in the messages of a reader: between double
quotes, with a backslash before quotes and backslashes, short escapes for the common controls, and
the code point in hexadecimal for everything unprintable.
-/

namespace FleetMatch.Text

/-- A hexadecimal numeral with small letters. -/
def hexNumeral (n : Nat) : List Char := Nat.toDigits 16 n

namespace Quoted

/-- A character as it stands in a quoted text. -/
def escape (c : Char) : List Char :=
  if c = '"' then ['\\', '"']
  else if c = '\\' then ['\\', '\\']
  else if c = '\n' then ['\\', 'n']
  else if c = '\r' then ['\\', 'r']
  else if c = '\t' then ['\\', 't']
  else if c = '\x00' then ['\\', '0']
  else if isUnprintable c then "\\u\x7b".toList ++ hexNumeral c.toNat ++ "\x7d".toList
  else [c]

/-- The quoted form of a text. -/
def encode (cs : List Char) : List Char := '"' :: (cs.flatMap escape ++ ['"'])

end Quoted

/-- `Quoted.encode` on strings. -/
def quoted (s : String) : String := String.ofList (Quoted.encode s.toList)

end FleetMatch.Text
