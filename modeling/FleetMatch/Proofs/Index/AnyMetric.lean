import FleetMatch.Proofs.Index.Within

/-!
# Answers without any promise about bounds

A metric may break its promise: its bounds need not be lower bounds, and its distances may be negative,
infinite or not numbers.  All that is asked here is that it has some bound for every proper box, so that
answers are defined at all.  A search may then lose clients, but what it finds is a proper listing, and
it finds as many clients as were wanted.

* `Roster.Listing`: clients of a roster at their true distances, none twice, in strict rank order.
* `listing_of_perm` — any part of all neighbours is a listing once it stands in rank order.
* `nearestBy_listing`, `within_listing` — what the two searches find.
* `answers_of_any_metric` — both together.
-/

set_option autoImplicit false

namespace FleetMatch

open Neighbor

open scoped List

/-! ## Listings -/

namespace Roster

/-- Neighbours of a place as an answer may list them. -/
structure Listing (roster : Roster) (metric : Metric) (q : Place) (found : List Neighbor) : Prop where
  /-- Every neighbour is a client of the roster at its true distance. -/
  measured : ∀ n ∈ found, n.entry ∈ roster.entries ∧ n.distance = metric.distance q n.entry.place
  /-- No client comes twice. -/
  once : (found.map fun n => n.entry.ordinal).Nodup
  /-- Every neighbour ranks strictly before all that follow. -/
  ordered : Ranked found

variable {roster : Roster} {metric : Metric} {q : Place} {found rest : List Neighbor}

/-- Any part of all neighbours is a listing once it stands in rank order. -/
theorem listing_of_perm (same : found ++ rest ~ roster.neighbors metric q) (ordered : Ranked found) :
    roster.Listing metric q found := by
  refine ⟨?_, ?_, ordered⟩
  · intro n hn
    obtain ⟨e, he, rfl⟩ := List.mem_map.1 (same.subset (List.mem_append_left rest hn))
    exact ⟨he, rfl⟩
  · have apart := (roster.distinct_neighbors metric q).perm same.symm
    exact List.pairwise_map.2 apart.append.1

end Roster

/-! ## Answers -/

namespace Index

variable {halving : Halving} {config : IndexConfig} {roster : Roster} {ix : Index} {q : Place}

/-- The clients that a search for the nearest finds. -/
theorem nearestBy_listing (built : buildBy? halving config roster = .ok ix)
    (bounds : config.metric.BoundsProper q False) (agenda : Agenda) (k : Nat) :
    ∃ found, ix.nearestBy agenda q k = some found ∧ roster.Listing config.metric q found ∧
      found.length = min k roster.length ∧
      (roster.length ≤ k → found = roster.ranked config.metric q) := by
  obtain ⟨best, dropped, e, ended⟩ := nearestBy_progress built bounds agenda k
  refine ⟨best.toList, e, ?_, ?_, ?_⟩
  · exact Roster.listing_of_perm ended.perm_toList ended.ordered.ranked
  · apply ended.length_toList
    rw [Roster.length_neighbors]
    exact Nat.min_le_right k roster.length
  · intro enough
    have all := nearestBy_of_length_le built bounds agenda enough
    exact Option.some.inj (e.symm.trans all)

/-- The clients that a search up to a distance finds. -/
theorem within_listing (built : buildBy? halving config roster = .ok ix)
    (bounds : config.metric.BoundsProper q False) (radius : Float) :
    ∃ found, ix.within q radius = some found ∧ roster.Listing config.metric q found ∧
      ∀ n ∈ found, n.distance ≤ radius := by
  by_cases refused : radius.isNaN = true ∨ radius < 0.0
  · refine ⟨[], within_eq_nil ix q refused, ?_, ?_⟩
    · exact Roster.listing_of_perm (List.Perm.refl _) List.Pairwise.nil
    · intro n hn
      cases hn
  · obtain ⟨all, found, same, e, part, -⟩ := within_eq_inRankOrder built bounds refused
    obtain ⟨rest, whole⟩ := (part.trans List.filter_sublist).exists_perm_append
    have split : found ++ rest ~ roster.neighbors config.metric q := whole.symm.trans same
    have apart := (roster.distinct_neighbors config.metric q).perm split.symm
    have ranked : inRankOrder found ++ rest ~ roster.neighbors config.metric q :=
      ((perm_inRankOrder found).append_right rest).trans split
    refine ⟨inRankOrder found, e, ?_, ?_⟩
    · exact Roster.listing_of_perm ranked (ranked_inRankOrder apart.append.1)
    · intro n hn
      have reached := part.subset ((perm_inRankOrder found).subset hn)
      exact of_decide_eq_true (List.mem_filter.1 reached).2

/-- **What an index finds by any metric** that has some bound for every proper box, whatever number the
bound is.  Among the nearest there are as many clients as were wanted, or all of them in rank order if
there are no more.  Up to a distance there is no client beyond it.  Either way the clients stand at
their true distances in strict rank order, and none comes twice. -/
theorem answers_of_any_metric (built : buildBy? halving config roster = .ok ix)
    (total : ∀ box : Region, box.IsProper → ∃ bound, config.metric.bound? q box = some bound)
    (agenda : Agenda) (k : Nat) (radius : Float) :
    ∃ nearest reached, ix.nearestBy agenda q k = some nearest ∧
      ix.within q radius = some reached ∧
      roster.Listing config.metric q nearest ∧
      nearest.length = min k roster.length ∧
      (roster.length ≤ k → nearest = roster.ranked config.metric q) ∧
      roster.Listing config.metric q reached ∧
      ∀ n ∈ reached, n.distance ≤ radius := by
  have bounds : config.metric.BoundsProper q False := by
    intro box proper
    obtain ⟨bound, hb⟩ := total box proper
    exact ⟨bound, hb, False.elim⟩
  obtain ⟨nearest, eNearest, listing, length, all⟩ := nearestBy_listing built bounds agenda k
  obtain ⟨reached, eReached, listing', upTo⟩ := within_listing built bounds radius
  exact ⟨nearest, reached, eNearest, eReached, listing, length, all, listing', upTo⟩

end Index

/-- How steeply a place rises from the origin, wherever the query stands.  This may be a negative number,
an infinity or not a number, and what is given for a box bounds nothing. -/
def Metric.slope : Metric := ⟨"slope", fun _ p => p.y / p.x, fun _ box => some box.maxY⟩

theorem Roster.ranked_corners_slope : Roster.corners.ranked .slope ⟨0.0, 0.0⟩ =
      ([2, 0, 1].filterMap (Roster.corners.entries[·]?)).map (measure .slope ⟨0.0, 0.0⟩) :=
  inRankOrder_eq (@List.perm_append_comm _ [_] [_, _]) (by decide +kernel)

/-- Bounds that bound nothing lose no client if all are wanted. -/
theorem Index.answers_of_slope :
    ∃ ix nearest reached, buildBy? Halving.sorting ⟨.slope, .ofNat 1⟩ Roster.corners = .ok ix ∧
      (∀ box : Region, box.IsProper → ∃ bound, Metric.slope.bound? ⟨0.0, 0.0⟩ box = some bound) ∧
      ix.nearestBy Agenda.heap ⟨0.0, 0.0⟩ 4 = some nearest ∧
      nearest.map (fun n => n.entry.ordinal) = [2, 0, 1] ∧
      ix.within ⟨0.0, 0.0⟩ 1.0 = some reached ∧ ∀ n ∈ reached, n.distance ≤ 1.0 := by
  have built := buildBy?_of_check Halving.sorting ⟨.slope, .ofNat 1⟩ Roster.check_corners
  have total : ∀ box : Region, box.IsProper →
      ∃ bound, Metric.slope.bound? ⟨0.0, 0.0⟩ box = some bound := by
    intro box _
    exact ⟨box.maxY, rfl⟩
  obtain ⟨nearest, reached, eNearest, eReached, -, -, all, -, upTo⟩ :=
    answers_of_any_metric built total Agenda.heap 4 1.0
  refine ⟨_, nearest, reached, built, total, eNearest, ?_, eReached, upTo⟩
  rw [all (by decide), show IndexConfig.metric ⟨.slope, .ofNat 1⟩ = .slope from rfl,
    Roster.ranked_corners_slope]
  rfl

end FleetMatch
