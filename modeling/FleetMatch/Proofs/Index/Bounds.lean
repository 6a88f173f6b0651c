import FleetMatch.Proofs.Index.Ranking
import FleetMatch.Proofs.Index.Representation

/-!
# Bounds over the boxes of a tree

A search asks a metric for bounds over the boxes of a tree and for nothing else.  All of these boxes
are proper, so it is enough to know the metric on proper boxes.

* `Metric.BoundsBelow`: what a metric promises for a query.  A bound exists for every proper box, and
  no place of the box is nearer.
* `Metric.BoundsProper`, `Tree.Bounded`: the same over boxes and over trees for metrics that promise
  less.  Bounds are lower bounds only if `lower` holds; without it nothing is said about them but that
  they exist.
* `Metric.BoundsTree`: the same over the one tree that a roster is given.
* `eastward_boundsBelow` — a metric that keeps such a promise for every query.
* `Sound.bounded`, `BoundsProper.boundsTree` — the bounds of a metric on proper boxes are bounds over a sound
  tree, and so over the tree of a roster.
-/

set_option autoImplicit false

namespace FleetMatch

open Neighbor

/-- For every proper box there is a bound, and no place of the box is nearer. -/
def Metric.BoundsBelow (metric : Metric) (q : Place) : Prop :=
  ∀ box : Region, box.IsProper → ∃ bound, metric.bound? q box = some bound ∧
    ∀ p, box.contains p = true → Scalar.rankLE bound (metric.distance q p) = true

/-- For every proper box there is a bound.  No place of the box is nearer, if bounds are to be lower
bounds. -/
def Metric.BoundsProper (metric : Metric) (q : Place) (lower : Prop) : Prop :=
  ∀ box : Region, box.IsProper → ∃ bound, metric.bound? q box = some bound ∧
    (lower → ∀ p, box.contains p = true → Scalar.rankLE bound (metric.distance q p) = true)

theorem Metric.BoundsBelow.boundsProper {metric : Metric} {q : Place} (h : metric.BoundsBelow q) :
    metric.BoundsProper q True := by
  intro box proper
  obtain ⟨bound, hb, below⟩ := h box proper
  exact ⟨bound, hb, fun _ => below⟩

/-- How far east a place lies, wherever the query stands.  Of a box, the western side bounds it. -/
def Metric.eastward : Metric := ⟨"eastward", fun _ p => p.x, fun _ box => some box.minX⟩

theorem Metric.eastward_boundsBelow (q : Place) : Metric.eastward.BoundsBelow q := by
  intro box _
  refine ⟨box.minX, rfl, ?_⟩
  intro p hp
  obtain ⟨⟨west, -⟩, -⟩ := Region.contains_iff.1 hp
  show Scalar.rankLE box.minX p.x = true
  simp [Scalar.rankLE, west]

theorem Roster.distinct_neighbors (metric : Metric) (q : Place) (roster : Roster) :
    Distinct (roster.neighbors metric q) :=
  distinct_measure (nodup_ordinal_entries roster) metric q

theorem Roster.length_neighbors (metric : Metric) (q : Place) (roster : Roster) :
    (roster.neighbors metric q).length = roster.length := by
  rw [neighbors, List.length_map, length_entries]

theorem Roster.length_ranked (metric : Metric) (q : Place) (roster : Roster) :
    (roster.ranked metric q).length = roster.length := by
  rw [ranked, (perm_inRankOrder _).length_eq, length_neighbors]

theorem Roster.ranked_corners : Roster.corners.ranked .eastward ⟨0.0, 0.0⟩ =
      ([1, 2, 0].filterMap (Roster.corners.entries[·]?)).map (measure .eastward ⟨0.0, 0.0⟩) :=
  inRankOrder_eq (@List.perm_append_comm _ [_, _] [_]) (by decide +kernel)

namespace Tree

variable (metric : Metric) (q : Place) (lower : Prop)

/-- The neighbours that a tree holds. -/
def neighbors (t : Tree) : List Neighbor := t.entries.map (measure metric q)

/-- The box of the tree has a bound, at most all distances to the tree if bounds are to be lower
bounds. -/
def HasBound (t : Tree) : Prop :=
  ∃ bound, metric.bound? q t.box = some bound ∧
    (lower → ∀ n ∈ t.neighbors metric q, Scalar.rankLE bound n.distance = true)

/-- A tree that has a bound, and so have all trees under it. -/
inductive Bounded : Tree → Prop
  | leaf {xs : List Entry} {box : Region} :
      HasBound metric q lower (.leaf xs box) → Bounded (.leaf xs box)
  | node {left right : Tree} {box : Region} :
      HasBound metric q lower (.node left right box) → Bounded left → Bounded right →
        Bounded (.node left right box)

variable {metric q lower}

theorem Bounded.hasBound {t : Tree} (h : Bounded metric q lower t) : HasBound metric q lower t := by
  cases h with
  | leaf h => exact h
  | node h _ _ => exact h

theorem Sound.isProper {capacity depth : Nat} {t : Tree} (h : Sound capacity depth t)
    (finite : ∀ e ∈ t.entries, e.place.isFinite = true) : t.box.IsProper := by
  refine h.tight.isProper ?_
  intro p hp
  obtain ⟨e, he, rfl⟩ := List.mem_map.1 hp
  exact finite e he

theorem Sound.hasBound {capacity depth : Nat} {t : Tree} (h : Sound capacity depth t)
    (finite : ∀ e ∈ t.entries, e.place.isFinite = true)
    (bounds : metric.BoundsProper q lower) : HasBound metric q lower t := by
  obtain ⟨bound, hb, below⟩ := bounds t.box (h.isProper finite)
  refine ⟨bound, hb, ?_⟩
  intro hl n hn
  obtain ⟨e, he, rfl⟩ := List.mem_map.1 hn
  exact below hl e.place (h.tight.contains e.place (List.mem_map_of_mem he))

/-- **The bounds of a metric on proper boxes are bounds over a sound tree.** -/
theorem Sound.bounded {capacity depth : Nat} {t : Tree} (h : Sound capacity depth t)
    (finite : ∀ e ∈ t.entries, e.place.isFinite = true)
    (bounds : metric.BoundsProper q lower) : Bounded metric q lower t := by
  induction h with
  | @leaf depth xs box hs =>
    have whole : Sound capacity depth (.leaf xs box) := .leaf hs
    exact .leaf (whole.hasBound finite bounds)
  | @node depth left right box hs hl hr ihl ihr =>
    have whole : Sound capacity depth (.node left right box) := .node hs hl hr
    refine .node (whole.hasBound finite bounds) (ihl ?_) (ihr ?_)
    · intro e he
      exact finite e (List.mem_append_left _ he)
    · intro e he
      exact finite e (List.mem_append_right _ he)

end Tree

/-- All boxes of the tree over a roster have a bound.  No client is nearer than the bound over a box that it is
in, if bounds are to be lower bounds. -/
def Metric.BoundsTree (metric : Metric) (q : Place) (lower : Prop) (halving : Halving)
    (capacity : LeafCapacity) (roster : Roster) : Prop :=
  ∀ tree, Index.treeOf? halving capacity roster = some tree → tree.Bounded metric q lower

section

variable {halving : Halving} {capacity : LeafCapacity} {roster : Roster} {metric : Metric} {q : Place}
  {lower : Prop}

theorem Metric.BoundsProper.boundsTree (bounds : metric.BoundsProper q lower)
    (accepted : roster.check = .ok ()) : metric.BoundsTree q lower halving capacity roster := by
  intro tree htree
  have nonempty : roster ≠ [] := by
    rintro rfl
    cases htree
  obtain ⟨tree', htree', sound, same⟩ := Index.treeOf?_sound halving capacity accepted nonempty
  cases htree.symm.trans htree'
  refine sound.bounded ?_ bounds
  intro e he
  exact Roster.isFinite_of_check accepted e (same.subset he)

/-- The tree over a roster that passes the check, with the bounds of a metric. -/
theorem Index.treeOf?_bounded (halving : Halving) (capacity : LeafCapacity)
    (accepted : roster.check = .ok ()) (nonempty : roster ≠ [])
    (bounds : metric.BoundsTree q lower halving capacity roster) :
    ∃ tree, treeOf? halving capacity roster = some tree ∧ tree.Bounded metric q lower ∧
      (tree.neighbors metric q).Perm (roster.neighbors metric q) := by
  obtain ⟨tree, htree, -, same⟩ := treeOf?_sound halving capacity accepted nonempty
  exact ⟨tree, htree, bounds tree htree, same.map _⟩

end

end FleetMatch
