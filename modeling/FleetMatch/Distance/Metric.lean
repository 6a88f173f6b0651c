import FleetMatch.Geo.Box

/-!
# Metrics

A metric measures the distance between two places and bounds from below the distance from a place to
all places of a box.  The bound is what a search prunes with.  It is undefined (`none`) where the
metric would have to clamp a coordinate to an empty interval.
-/

namespace FleetMatch

/-- A way to measure distances, with a lower bound over boxes. -/
structure Metric where
  /-- The name under which the metric appears in logs and answers. -/
  name : String
  /-- The distance between two places. -/
  distance : Place → Place → Float
  /-- A lower bound of the distance from a place to the places of a box. -/
  bound? : Place → Region → Option Float

end FleetMatch
