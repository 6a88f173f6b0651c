import FleetMatch.Decimal.Numeral

/-!
# Reading decimals

* `ofDecimal`: the binary64 number nearest to `± coefficient * 10 ^ exponent`, infinite beyond the
  finite range.
* `read`: a floating-point literal.  It has an optional sign and digits with an optional point and
  exponent, or is one of the words `inf`, `infinity` and `nan` in any case.  A point needs a digit
  on one of its sides.
-/

namespace FleetMatch.Decimal

/-- The number of digits of a natural number, give or take one for numbers of less than a hundred
million digits; it is read off the number of bits. -/
def roughSize (n : Nat) : Nat := n.log2 * 30103 / 100000 + 1

/-- The nearest binary64 number to a decimal.  Exponents far outside the range are answered without
forming the power of ten. -/
def ofDecimal (negative : Bool) (coefficient : Nat) (exponent : Int) : Float :=
  let size := exponent + roughSize coefficient
  let magnitude : Float :=
    if coefficient = 0 || size < -400 then 0.0
    else if 400 < size then 1.0 / 0.0
    else Float.ofScientific coefficient (decide (exponent < 0)) exponent.natAbs
  if negative then -magnitude else magnitude

namespace Literal

/-- Why a text is no floating-point literal. -/
inductive Error where
  | empty
  | malformed
  deriving DecidableEq, Repr

/-- The error in words. -/
def Error.message : Error → String
  | .empty => "cannot parse float from empty string"
  | .malformed => "invalid float literal"

/-- The exponent part after the digits: nothing, or `e`, an optional sign and digits. -/
def exponent? : List Char → Option Int
  | [] => some 0
  | c :: cs => if c = 'e' || c = 'E' then Numeral.signed? cs else none

/-- The magnitude of a literal without its sign. -/
def unsigned? (negative : Bool) (cs : List Char) : Option Float :=
  let whole := cs.takeWhile Numeral.isDigit
  let rest := cs.dropWhile Numeral.isDigit
  let (fraction, rest) :=
    if rest.head? = some '.' then
      (rest.tail.takeWhile Numeral.isDigit, rest.tail.dropWhile Numeral.isDigit)
    else ([], rest)
  let digits := whole ++ fraction
  if digits.isEmpty then none
  else
    (exponent? rest).map fun e => ofDecimal negative (Numeral.value digits) (e - fraction.length)

/-- The value of one of the words for what is not finite. -/
def word? (negative : Bool) (cs : List Char) : Option Float :=
  let word := cs.map Char.toLower
  let infinity : Float := 1.0 / 0.0
  if word = "inf".toList || word = "infinity".toList then
    some (if negative then -infinity else infinity)
  else if word = "nan".toList then some (0.0 / 0.0)
  else none

/-- The value of a literal, or why the text is none. -/
def read (cs : List Char) : Except Error Float :=
  let (negative, body) :=
    match cs with
    | '-' :: rest => (true, rest)
    | '+' :: rest => (false, rest)
    | _ => (false, cs)
  if cs.isEmpty then .error .empty
  else
    match unsigned? negative body with
    | some x => .ok x
    | none =>
      match word? negative body with
      | some x => .ok x
      | none => .error .malformed

end Literal

end FleetMatch.Decimal
