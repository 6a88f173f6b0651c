import FleetMatch.Geo.Point
import FleetMatch.Scalar.Order

/-!
# Boxes

A box is a product of two closed intervals.  Nothing forces its sides to be in order: an inverted
box contains no point.

* `Box.contains`, `Box.intersects`: membership and overlap, borders included.
* `Box.clamp?`: the nearest point of the box, undefined on an inverted box.
* `Region.expand`, `Region.expandPoint`, `Region.enclose`: the least box above two boxes, a box and
  a point, or a list of points.
-/

namespace FleetMatch

/-- A box by its four sides. -/
structure Box (R : Type) where
  minX : R
  maxX : R
  minY : R
  maxY : R
  deriving BEq, Repr

/-- A box with binary64 sides. -/
abbrev Region := Box Float

namespace Box

variable {R : Type}

/-- The box of a single point. -/
def ofPoint (p : Point R) : Box R := ⟨p.x, p.x, p.y, p.y⟩

variable [Comparable R]

/-- The longitude lies in the box. -/
def containsX (b : Box R) (x : R) : Bool := Comparable.between b.minX b.maxX x

/-- The latitude lies in the box. -/
def containsY (b : Box R) (y : R) : Bool := Comparable.between b.minY b.maxY y

/-- The point lies in the box or on its border. -/
def contains (b : Box R) (p : Point R) : Bool := b.containsX p.x && b.containsY p.y

/-- The boxes overlap, if only in a border point. -/
def intersects (a b : Box R) : Bool :=
  Comparable.le a.minX b.maxX && Comparable.le b.minX a.maxX &&
    Comparable.le a.minY b.maxY && Comparable.le b.minY a.maxY

/-- The point of the box that is nearest to `p`, axis by axis. -/
def clamp? (b : Box R) (p : Point R) : Option (Point R) := do
  let x ← Comparable.clamp? p.x b.minX b.maxX
  let y ← Comparable.clamp? p.y b.minY b.maxY
  return ⟨x, y⟩

end Box

namespace Region

open Scalar

/-- The least box above two boxes. -/
def expand (a b : Region) : Region :=
  ⟨smaller a.minX b.minX, greater a.maxX b.maxX, smaller a.minY b.minY, greater a.maxY b.maxY⟩

/-- The least box above a box and a point. -/
def expandPoint (b : Region) (p : Place) : Region := expand b (Box.ofPoint p)

/-- The least box above a point and further points. -/
def enclose (first : Place) (rest : List Place) : Region := rest.foldl expandPoint (Box.ofPoint first)

/-- The least box above the points of a list, if there are any. -/
def enclosing? : List Place → Option Region
  | [] => none
  | first :: rest => some (enclose first rest)

end Region

end FleetMatch
