import FleetMatch.Decimal.Numeral
import FleetMatch.Decimal.Shortest

/-!
# Layouts of floating-point text

A number is written by the digits of its shortest decimal.  A `Layout` decides the rest: which
magnitudes are written positionally, whether a whole number keeps a zero after the point, how an
exponent is written, and what stands for the values that are not finite.

* `Layout.plain`: always positional; the layout of messages.
* `Layout.exact`: tells whole numbers from integers; the layout of descriptions for logs.
* `Layout.json`: the layout of JSON texts, where what is not finite is `null`.
-/

namespace FleetMatch.Decimal

open Scalar

/-- How a floating-point number is written. -/
structure Layout where
  /-- Which of two equally near shortest decimals is written. -/
  tie : Tie
  /-- The numbers written positionally, by the exponent of their first digit. -/
  positional : Int → Bool
  /-- A whole number in positional form ends in `.0`. -/
  keepsZero : Bool
  /-- A positive exponent has a plus sign. -/
  plusSign : Bool
  /-- What is not finite is written as this, if given. -/
  nonFinite : Option String

/-- Messages show every digit. -/
def Layout.plain : Layout := ⟨.up, fun _ => true, false, false, none⟩

/-- Descriptions keep the zero of whole numbers and write exponents from `1e16` on and below
`1e-4`. -/
def Layout.exact : Layout := ⟨.up, fun e => -4 ≤ e && e < 16, true, false, none⟩

/-- JSON texts keep the zero of whole numbers and write exponents from `1e+16` on and below `1e-5`. -/
def Layout.json : Layout := ⟨.even, fun e => -5 ≤ e && e < 16, true, true, some "null"⟩

namespace Layout

/-- So many zeros. -/
def zeros (n : Nat) : List Char := List.replicate n '0'

/-- The digits with the decimal point after the first `whole` of them. -/
def positionalText (l : Layout) (digits : List Char) (whole : Int) : List Char :=
  if (digits.length : Int) ≤ whole then
    digits ++ zeros (whole - digits.length).toNat ++ (if l.keepsZero then ['.', '0'] else [])
  else if 0 < whole then digits.take whole.toNat ++ '.' :: digits.drop whole.toNat
  else ['0', '.'] ++ zeros (-whole).toNat ++ digits

/-- The digits with the decimal point after the first one, and the exponent of that digit. -/
def exponentText (l : Layout) (digits : List Char) (exponent : Int) : List Char :=
  let fraction := digits.drop 1
  digits.take 1 ++ (if fraction.isEmpty then [] else '.' :: fraction) ++ ['e'] ++
    (if exponent < 0 then ['-'] else if l.plusSign then ['+'] else []) ++
    Numeral.digits exponent.natAbs

/-- The text of a positive finite number. -/
def positive (l : Layout) (p : Parts) : List Char :=
  let d := shortest l.tie p
  let digits := Numeral.digits d.coefficient
  let exponent := d.exponent + digits.length - 1
  if l.positional exponent then l.positionalText digits (exponent + 1)
  else l.exponentText digits exponent

/-- The text of a finite number; a zero keeps its sign. -/
def finite (l : Layout) (p : Parts) : List Char :=
  (if p.negative then ['-'] else []) ++
    (if p.mantissa = 0 then '0' :: (if l.keepsZero then ['.', '0'] else []) else l.positive p)

/-- The text of a number. -/
def text (l : Layout) (x : Float) : String :=
  if x.isFinite then String.ofList (l.finite (Parts.ofFloat x))
  else
    match l.nonFinite with
    | some word => word
    | none => if x.isNaN then "NaN" else if x < 0.0 then "-inf" else "inf"

end Layout

end FleetMatch.Decimal
