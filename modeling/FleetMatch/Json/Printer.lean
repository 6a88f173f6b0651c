import FleetMatch.Decimal.Layout
import FleetMatch.Json.Value
import FleetMatch.Text.Quoted

/-!
# Writing JSON text

`Value.print` writes a value without any white space.  Inside strings only the quote, the backslash
and the controls below U+0020 are escaped; a number that is not finite is written as `null`.
-/

namespace FleetMatch.Json

/-- A hexadecimal digit. -/
def hexDigit (n : Nat) : Char := (Text.hexNumeral (n % 16)).headD '0'

/-- A character as it stands in a string. -/
def escapeChar (c : Char) : List Char :=
  if c = '"' then ['\\', '"']
  else if c = '\\' then ['\\', '\\']
  else if c = '\x08' then ['\\', 'b']
  else if c = '\x0c' then ['\\', 'f']
  else if c = '\n' then ['\\', 'n']
  else if c = '\r' then ['\\', 'r']
  else if c = '\t' then ['\\', 't']
  else if c.toNat < 0x20 then ['\\', 'u', '0', '0', hexDigit (c.toNat / 16), hexDigit c.toNat]
  else [c]

/-- A string with its quotes. -/
def printString (s : String) : List Char := '"' :: (s.toList.flatMap escapeChar ++ ['"'])

/-- A number. -/
def Number.print : Number → List Char
  | .int n => (FleetMatch.Numeral.ofInt n).toList
  | .float x => (Decimal.Layout.json.text x).toList

mutual

/-- The text of a value. -/
def Value.print : Value → List Char
  | .null => ['n', 'u', 'l', 'l']
  | .bool true => ['t', 'r', 'u', 'e']
  | .bool false => ['f', 'a', 'l', 's', 'e']
  | .number n => n.print
  | .string s => printString s
  | .array items => '[' :: (printItems items ++ [']'])
  | .object members => '\x7b' :: (printMembers members ++ ['\x7d'])

/-- The items of an array, with commas between them. -/
def printItems : List Value → List Char
  | [] => []
  | [v] => v.print
  | v :: more => v.print ++ ',' :: printItems more

/-- The members of an object, with commas between them. -/
def printMembers : List (String × Value) → List Char
  | [] => []
  | [(name, v)] => printString name ++ ':' :: v.print
  | (name, v) :: more => printString name ++ ':' :: (v.print ++ ',' :: printMembers more)

end

/-- The text of a value, as a string. -/
def Value.text (v : Value) : String := String.ofList v.print

/-- An integer as a value. -/
def Value.ofInt (n : Int) : Value := .number (.int n)

/-- A binary64 number as a value. -/
def Value.ofFloat (x : Float) : Value := .number (.float x)

end FleetMatch.Json
