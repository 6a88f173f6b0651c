import FleetMatch.Decimal.Numeral

/-!
# Reading decimals in steps

A quick way from a decimal to a binary64 number.  The digits are gathered into a significand of 64 bits,
the significand is taken as a binary64 number, and this is multiplied or divided by a power of ten.  Every
step rounds, so what comes out may stand next to the nearest number.

* `intake`: the digits for which a significand has room.
* `scaled?`: a number times a power of ten, unless this is too large.
* `stepwise?`: the number for some digits, a point and an exponent.
-/

namespace FleetMatch.Decimal

/-- A significand with the next digits behind it, and the digits that are left over from the first one
that would take it beyond 64 bits. -/
def intake (significand : Nat) : List Char → Nat × List Char
  | [] => (significand, [])
  | c :: cs =>
    let longer := 10 * significand + Numeral.digitValue c
    if longer < UInt64.size then intake longer cs else (significand, c :: cs)

/-- The binary64 number nearest to a power of ten. -/
def powerOfTen (k : Nat) : Float := Float.ofScientific 1 false k

/-- A number divided by the greatest power of ten so many times, unless nothing is left of it before. -/
def shrunk : Nat → Float → Float
  | 0, x => x
  | n + 1, x => if x == 0.0 then x else shrunk n (x / powerOfTen 308)

/-- A number times a power of ten, if this is finite.  Only powers up to `10 ^ 308` are at hand. -/
def scaled? (x : Float) : Int → Option Float
  | .ofNat e =>
    if e ≤ 308 then
      let product := x * powerOfTen e
      if product.isFinite then some product else none
    else if x == 0.0 then some x
    else none
  | .negSucc e => some (shrunk (e / 308) x / powerOfTen (e % 308 + 1))

/-- The number for digits before and after a point and an exponent.  Digits that the significand has no
room for count as zeros before the point and not at all behind it. -/
def stepwise? (negative : Bool) (whole fraction : List Char) (exponent : Int) : Option Float :=
  let (start, unread) := intake 0 whole
  let (significand, dropped) := intake start fraction
  let places : Int := dropped.length - fraction.length + unread.length
  (scaled? significand.toUInt64.toFloat (exponent + places)).map fun x => if negative then -x else x

end FleetMatch.Decimal
