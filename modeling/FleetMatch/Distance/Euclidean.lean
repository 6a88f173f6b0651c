import FleetMatch.Distance.Metric

/-!
# Euclidean distance

The planar distance in units of the coordinates, and its bound over a box: the distance to the
nearest point of the box.
-/

namespace FleetMatch

namespace Euclidean

/-- The planar distance. -/
def distance (a b : Place) : Float :=
  let dx := b.x - a.x
  let dy := b.y - a.y
  (dx * dx + dy * dy).sqrt

/-- The distance to the nearest point of the box. -/
def bound? (q : Place) (box : Region) : Option Float := (box.clamp? q).map (distance q)

end Euclidean

/-- Planar distances, in units of the coordinates. -/
def Metric.euclidean : Metric := ⟨"euclidean", Euclidean.distance, Euclidean.bound?⟩

end FleetMatch
