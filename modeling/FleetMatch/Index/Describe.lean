import FleetMatch.Index.Build

/-!
# Descriptions of an index

The text under which an index appears in logs.
-/

namespace FleetMatch

/-- A box with its sides. -/
def Region.describe (b : Region) : String :=
  let side := Decimal.Layout.exact.text
  "BoundingBox \x7b min_x: " ++ side b.minX ++ ", max_x: " ++ side b.maxX ++ ", min_y: " ++
    side b.minY ++ ", max_y: " ++ side b.maxY ++ " \x7d"

/-- An index with its size, metric, capacity and bounds. -/
def Index.describe (ix : Index) : String :=
  let bounds :=
    match ix.bounds? with
    | some b => "Some(" ++ b.describe ++ ")"
    | none => "None"
  "SpatialIndex \x7b len: " ++ Numeral.ofNat ix.size ++ ", metric: " ++
    Text.quoted ix.metric.name ++ ", leaf_capacity: " ++ Numeral.ofNat ix.capacity.entries ++
    ", bounds: " ++ bounds ++ " \x7d"

end FleetMatch
