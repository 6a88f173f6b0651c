import FleetMatch.Scalar.Parts

/-!
# Shortest decimals

The shortest decimal of a binary64 number is the decimal with the fewest digits among those that
read back as the number, and of these the one nearest to it.  `shortest` looks at the decimal grids
from the coarsest to the finest.  On each grid only the two neighbours of the value matter: if any
point of a grid reads back, one of them does.

The decimals that read back fill the interval between the midpoints to the two neighbouring numbers;
its ends belong to it exactly if the mantissa is even.
-/

namespace FleetMatch.Decimal

open Scalar

/-- Which of two equally near decimals is taken. -/
inductive Tie where
  /-- The greater one. -/
  | up
  /-- The one whose last digit is even. -/
  | even
  deriving DecidableEq, Repr

/-- The decimal `coefficient * 10 ^ exponent`. -/
structure Scaled where
  coefficient : Nat
  exponent : Int
  deriving DecidableEq, Repr

/-- A positive binary64 number with the interval of the numbers that round to it, all over one
denominator. -/
structure Span where
  value : Nat
  low : Nat
  high : Nat
  denominator : Nat
  /-- The ends belong to the interval. -/
  closed : Bool
  deriving Repr

/-- The interval of a positive number.  Below a power of two the neighbour is only half as far. -/
def Span.ofParts (p : Parts) : Span :=
  let below := if p.mantissa = 0x10000000000000 ∧ -1074 < p.exponent then 1 else 2
  let exponent := p.exponent - 2
  let scale := 1 <<< exponent.toNat
  ⟨4 * p.mantissa * scale, (4 * p.mantissa - below) * scale, (4 * p.mantissa + 2) * scale,
    1 <<< (-exponent).toNat, p.mantissa % 2 == 0⟩

namespace Span

/-- `numerator / denominator * 10 ^ unit` in the units of the span, as a quotient. -/
def onGrid (s : Span) (k : Nat) (unit : Int) : Nat × Nat :=
  (k * s.denominator * Nat.pow 10 unit.toNat, Nat.pow 10 (-unit).toNat)

/-- The decimal `k * 10 ^ unit` reads back as the value. -/
def readsBack (s : Span) (k : Nat) (unit : Int) : Bool :=
  let (num, den) := s.onGrid k unit
  if s.closed then s.low * den ≤ num && num ≤ s.high * den
  else s.low * den < num && num < s.high * den

/-- The greatest decimal of a grid that is at most the value. -/
def below (s : Span) (unit : Int) : Nat :=
  s.value * Nat.pow 10 (-unit).toNat / (s.denominator * Nat.pow 10 unit.toNat)

/-- The decimal of a grid that reads back and is nearest to the value, if one does. -/
def nearestOn? (s : Span) (tie : Tie) (unit : Int) : Option Nat :=
  let k := s.below unit
  let (num, den) := s.onGrid (2 * k + 1) unit
  match s.readsBack k unit, s.readsBack (k + 1) unit with
  | true, true =>
    let middle := 2 * s.value * den
    if middle < num then some k
    else if num < middle then some (k + 1)
    else
      match tie with
      | .up => some (k + 1)
      | .even => some (if k % 2 = 0 then k else k + 1)
  | true, false => some k
  | false, true => some (k + 1)
  | false, false => none

/-- The number of digits before the decimal point; for a value below one, zero or less, by the
zeros after the point. -/
def point (s : Span) : Int :=
  if s.denominator ≤ s.value then (Nat.toDigits 10 (s.value / s.denominator)).length
  else
    match (List.range 350).find? fun t => s.denominator ≤ s.value * Nat.pow 10 t with
    | some t => 1 - (t : Int)
    | none => 0

end Span

/-- A decimal without the zeros at the end of its coefficient. -/
def stripZeros (fuel : Nat) (d : Scaled) : Scaled :=
  match fuel with
  | 0 => d
  | fuel + 1 =>
    if d.coefficient ≠ 0 ∧ d.coefficient % 10 = 0 then
      stripZeros fuel ⟨d.coefficient / 10, d.exponent + 1⟩
    else d

/-- The shortest decimal of a positive number.  Seventeen digits always suffice. -/
def shortest (tie : Tie) (p : Parts) : Scaled :=
  let s := Span.ofParts p
  let point := s.point
  let found := (List.range 17).findSome? fun (i : Nat) =>
    let unit : Int := point - (i + 1 : Nat)
    (s.nearestOn? tie unit).map fun k => stripZeros 20 ⟨k, unit⟩
  found.getD ⟨p.mantissa, 0⟩

end FleetMatch.Decimal
