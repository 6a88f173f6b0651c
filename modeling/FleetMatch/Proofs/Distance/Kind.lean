import FleetMatch.Distance.Kind
import FleetMatch.Proofs.Index.Bounds

/-!
# Both metrics have bounds over proper boxes

A bound clamps to the sides of a box, and this is all that could make it undefined.

* `MetricKind.boundsProper` — every place has a bound over every proper box, for both metrics.  Nothing
  is said about whether it is a lower bound.
-/

set_option autoImplicit false

namespace FleetMatch

namespace Metric

variable (q : Place)

/-- The planar bound is the distance to the clamped place. -/
theorem euclidean_bound?_of_isProper {box : Region} (proper : box.IsProper) :
    ∃ x y, Comparable.clamp? q.x box.minX box.maxX = some x ∧
      Comparable.clamp? q.y box.minY box.maxY = some y ∧
      Metric.euclidean.bound? q box = some (Euclidean.distance q ⟨x, y⟩) := by
  obtain ⟨x, clampX⟩ := Scalar.clamp?_of_le q.x proper.ordered.1
  obtain ⟨y, clampY⟩ := Scalar.clamp?_of_le q.y proper.ordered.2
  refine ⟨x, y, clampX, clampY, ?_⟩
  show (box.clamp? q).map (Euclidean.distance q) = _
  simp [Box.clamp?, clampX, clampY]

theorem euclidean_boundsProper : Metric.euclidean.BoundsProper q False := by
  intro box proper
  obtain ⟨x, y, -, -, bound⟩ := euclidean_bound?_of_isProper q proper
  exact ⟨_, bound, False.elim⟩

theorem meridianBound?_of_le (radius lon : Float) {minLat maxLat : Float} (order : minLat ≤ maxLat) :
    ∃ bound, GreatCircle.meridianBound? radius q lon minLat maxLat = some bound := by
  obtain ⟨closest, clamp⟩ := Scalar.clamp?_of_le (GreatCircle.closestLatitude q lon) order
  unfold GreatCircle.meridianBound?
  rw [clamp]
  exact ⟨_, rfl⟩

theorem haversine_boundsProper (radius : Float) :
    (Metric.haversine radius).BoundsProper q False := by
  intro box proper
  obtain ⟨west, hw⟩ := meridianBound?_of_le q radius box.minX proper.ordered.2
  obtain ⟨east, he⟩ := meridianBound?_of_le q radius box.maxX proper.ordered.2
  obtain ⟨lat, hl⟩ := Scalar.clamp?_of_le q.y proper.ordered.2
  have bounded : ∃ bound, GreatCircle.bound? radius q box = some bound := by
    unfold GreatCircle.bound?
    split
    · exact ⟨_, rfl⟩
    · split
      · rw [hl]
        exact ⟨_, rfl⟩
      · rw [hw, he]
        exact ⟨_, rfl⟩
  obtain ⟨bound, hb⟩ := bounded
  exact ⟨bound, hb, False.elim⟩

end Metric

/-- **Both metrics have a bound over every proper box.** -/
theorem MetricKind.boundsProper (kind : MetricKind) (q : Place) :
    kind.metric.BoundsProper q False := by
  cases kind with
  | euclidean => exact Metric.euclidean_boundsProper q
  | haversine => exact Metric.haversine_boundsProper q GreatCircle.earthRadius

end FleetMatch
