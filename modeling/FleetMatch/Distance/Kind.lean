import FleetMatch.Distance.Euclidean
import FleetMatch.Distance.GreatCircle
import FleetMatch.Text.Blank
import FleetMatch.Text.Case

/-!
# The metrics that can be chosen by name

`MetricKind` names the two metrics that settings and commands can ask for.  `MetricKind.parse` is
generous: it takes any letter case, blanks around the word and one further word for each metric.
-/

namespace FleetMatch

/-- The metrics that can be chosen by name. -/
inductive MetricKind where
  | euclidean
  | haversine
  deriving DecidableEq, Repr

namespace MetricKind

/-- The name of the metric. -/
def name : MetricKind → String
  | .euclidean => "euclidean"
  | .haversine => "haversine"

/-- The metric itself; great circles are those of the earth, in metres. -/
def metric : MetricKind → Metric
  | .euclidean => Metric.euclidean
  | .haversine => Metric.haversine GreatCircle.earthRadius

/-- The kinds by their names. -/
def options : List (String × MetricKind) := [("euclidean", .euclidean), ("haversine", .haversine)]

/-- The kind that a word asks for, or what is wrong with the word. -/
def parse (raw : String) : Except String MetricKind :=
  let word := Text.lowered (Text.trimmed raw)
  if word = "euclidean" || word = "planar" then .ok .euclidean
  else if word = "haversine" || word = "geo" then .ok .haversine
  else .error ("unknown metric '" ++ word ++ "', expected 'euclidean' or 'haversine'")

end MetricKind

end FleetMatch
