/-!
# Points

A point has a longitude (or planar abscissa) `x` and a latitude (or planar ordinate) `y`.  It is
polymorphic in its coordinates: the library computes with `Place`, whose coordinates are binary64
numbers, and the same formulas can be read over any other numbers.
-/

namespace FleetMatch

/-- A point by its two coordinates. -/
structure Point (R : Type) where
  x : R
  y : R
  deriving BEq, Repr

/-- A point with binary64 coordinates. -/
abbrev Place := Point Float

namespace Place

/-- Both coordinates are finite. -/
def isFinite (p : Place) : Bool := p.x.isFinite && p.y.isFinite

end Place

end FleetMatch
