/-!
# The exact value of a binary64 number

* `Parts`: sign, mantissa and exponent; a finite number is `± mantissa * 2 ^ exponent`.
* `Parts.toInt?`: the value as an integer, if it is one.
* `Parts.roundAway`: the nearest integer, a half away from zero.
-/

namespace FleetMatch.Scalar

/-- Sign, mantissa and exponent of a binary64 number. -/
structure Parts where
  negative : Bool
  mantissa : Nat
  exponent : Int
  deriving DecidableEq, Repr

/-- Reads the three fields of the bit pattern.  The smallest exponent is shared by the subnormal
numbers, whose mantissa has no leading one. -/
def Parts.ofFloat (x : Float) : Parts :=
  let bits : Nat := x.toBits.toNat
  let field : Nat := bits / 0x10000000000000 % 0x800
  let fraction := bits % 0x10000000000000
  let negative := decide (0x8000000000000000 ≤ bits)
  if field = 0 then ⟨negative, fraction, -1074⟩
  else ⟨negative, fraction + 0x10000000000000, (field : Int) - 1075⟩

namespace Parts

/-- The magnitude as a quotient of two natural numbers. -/
def ratio (p : Parts) : Nat × Nat :=
  if 0 ≤ p.exponent then (p.mantissa <<< p.exponent.toNat, 1)
  else (p.mantissa, 1 <<< (-p.exponent).toNat)

/-- A magnitude with the sign of `p`. -/
def withSign (p : Parts) (magnitude : Nat) : Int :=
  if p.negative then -(magnitude : Int) else magnitude

/-- The value, where it is an integer. -/
def toInt? (p : Parts) : Option Int :=
  let (num, den) := p.ratio
  if num % den = 0 then some (p.withSign (num / den)) else none

/-- The nearest integer; a half goes away from zero. -/
def roundAway (p : Parts) : Int :=
  let (num, den) := p.ratio
  p.withSign ((2 * num + den) / (2 * den))

end Parts

end FleetMatch.Scalar
