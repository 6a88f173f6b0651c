import FleetMatch.Geo.Box
import FleetMatch.Json.Decoder
import FleetMatch.Json.Printer

/-!
# Points and boxes as JSON

A point has the members `x` and `y`, a box has one member for each of its four sides.
-/

namespace FleetMatch

namespace Place

/-- The fields of a point. -/
def fields : List (Json.Field Place) :=
  [.required "x" (fun _ => Json.float) fun p x => { p with x := x },
    .required "y" (fun _ => Json.float) fun p y => { p with y := y }]

/-- Reads a point. -/
def reader (depth : Nat) : Json.Reader Place := Json.record "GeoPoint" fields ⟨0, 0⟩ depth

/-- The point as a JSON value. -/
def toJson (p : Place) : Json.Value := .object [("x", .ofFloat p.x), ("y", .ofFloat p.y)]

end Place

namespace Region

/-- The fields of a box. -/
def fields : List (Json.Field Region) :=
  [.required "min_x" (fun _ => Json.float) fun b v => { b with minX := v },
    .required "max_x" (fun _ => Json.float) fun b v => { b with maxX := v },
    .required "min_y" (fun _ => Json.float) fun b v => { b with minY := v },
    .required "max_y" (fun _ => Json.float) fun b v => { b with maxY := v }]

/-- Reads a box. -/
def reader (depth : Nat) : Json.Reader Region :=
  Json.record "BoundingBox" fields ⟨0, 0, 0, 0⟩ depth

/-- The box as a JSON value. -/
def toJson (b : Region) : Json.Value :=
  .object
    [("min_x", .ofFloat b.minX), ("max_x", .ofFloat b.maxX), ("min_y", .ofFloat b.minY),
      ("max_y", .ofFloat b.maxY)]

end Region

end FleetMatch
