import FleetMatch.Proofs.Distance.Kind
import FleetMatch.Proofs.Scalar.Clamping

/-!
# The planar bound is a lower bound

The bound of a box is the distance to its nearest point, computed with rounding like every distance.
Rounding keeps the order on either axis, so the bound stays below the distance to every place of the
box, and this on all queries: also where a difference overflows, is infinite or is not a number.

* `euclidean_boundsBelow` — no place of a proper box is nearer than its bound.
* `Euclidean.bound?_of_contains` — the bound is zero on the places of the box.
* `Euclidean.bound?_admissible` — both together, for every query.
-/

set_option autoImplicit false

namespace FleetMatch

open Scalar

/-- **No place of a proper box is nearer than its planar bound.** -/
theorem Metric.euclidean_boundsBelow (q : Place) : Metric.euclidean.BoundsBelow q := by
  intro box proper
  obtain ⟨x, y, clampX, clampY, bound⟩ := Metric.euclidean_bound?_of_isProper q proper
  obtain ⟨finiteMinX, finiteMaxX, finiteMinY, finiteMaxY⟩ := proper.finite
  refine ⟨_, bound, ?_⟩
  intro p hp
  obtain ⟨⟨west, east⟩, south, north⟩ := Region.contains_iff.1 hp
  have longitudes : rankLE ((x - q.x) * (x - q.x)) ((p.x - q.x) * (p.x - q.x)) = true :=
    rankLE_square (sub_clamp_le finiteMinX finiteMaxX west east clampX)
  have latitudes : rankLE ((y - q.y) * (y - q.y)) ((p.y - q.y) * (p.y - q.y)) = true :=
    rankLE_square (sub_clamp_le finiteMinY finiteMaxY south north clampY)
  have squaresX := value_square_nonneg (x - q.x)
  have squaresY := value_square_nonneg (y - q.y)
  exact rankLE_sqrt (value_add_nonneg squaresX squaresY)
    (rankLE_add squaresX squaresY longitudes latitudes)

namespace Euclidean

variable {box : Region} {q : Place}

theorem distance_self (finite : q.isFinite = true) : distance q q = 0.0 := by
  simp only [Place.isFinite, Bool.and_eq_true] at finite
  simp only [distance, sub_self_of_isFinite finite.1, sub_self_of_isFinite finite.2]
  rfl

/-- **The planar bound is zero on the places of a box.** -/
theorem bound?_of_contains (proper : box.IsProper) (inside : box.contains q = true) :
    bound? q box = some 0.0 := by
  obtain ⟨finiteMinX, finiteMaxX, finiteMinY, finiteMaxY⟩ := proper.finite
  obtain ⟨⟨west, east⟩, south, north⟩ := Region.contains_iff.1 inside
  have clamp : box.clamp? q = some q := by
    simp [Box.clamp?, clamp?_of_between west east, clamp?_of_between south north]
  have finite : q.isFinite = true := by
    simp [Place.isFinite, isFinite_of_between finiteMinX finiteMaxX west east,
      isFinite_of_between finiteMinY finiteMaxY south north]
  rw [bound?, clamp, Option.map_some, distance_self finite]

/-- **The planar bound is a lower bound in binary64 arithmetic**, for every query: it ranks at or before
the distance to every place of a proper box, and it is zero if the query lies in the box. -/
theorem bound?_admissible (proper : box.IsProper) (q : Place) :
    ∃ bound, bound? q box = some bound ∧
      (∀ p, box.contains p = true → rankLE bound (distance q p) = true) ∧
      (box.contains q = true → bound = 0.0) := by
  obtain ⟨bound, hb, below⟩ := Metric.euclidean_boundsBelow q box proper
  refine ⟨bound, hb, below, ?_⟩
  intro inside
  have zero := bound?_of_contains proper inside
  exact Option.some.inj (hb.symm.trans zero)

/-- A box so far away that its bound overflows, as does the distance to its farther side. -/
theorem far_box_admissible :
    ∃ bound, Region.IsProper ⟨0.0, 1e200, -1.0, 1.0⟩ ∧
      bound? ⟨-1e200, 0.0⟩ ⟨0.0, 1e200, -1.0, 1.0⟩ = some bound ∧
      bound.isFinite = false ∧ rankLE bound (distance ⟨-1e200, 0.0⟩ ⟨1e200, 1.0⟩) = true := by
  have proper : Region.IsProper ⟨0.0, 1e200, -1.0, 1.0⟩ := by
    constructor <;> decide +kernel
  obtain ⟨bound, hb, below, -⟩ := bound?_admissible proper ⟨-1e200, 0.0⟩
  have overflows : bound? ⟨-1e200, 0.0⟩ ⟨0.0, 1e200, -1.0, 1.0⟩ = some (1.0 / 0.0) := by
    decide +kernel
  refine ⟨bound, proper, hb, ?_, below ⟨1e200, 1.0⟩ (by decide +kernel)⟩
  rw [Option.some.inj (hb.symm.trans overflows)]
  rfl

end Euclidean

end FleetMatch
