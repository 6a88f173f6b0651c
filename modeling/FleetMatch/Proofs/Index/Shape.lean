import FleetMatch.Proofs.Distance.Euclidean
import FleetMatch.Proofs.Index.Nearest

/-!
# Answers and the shape of the tree

The capacity of the leaves and the way to cut halves give the tree its shape.  An answer does not show
the shape if the search has nothing to prune by mistake: with planar distances, if no bound over a box of
the tree exceeds the distance to a client in that box, if all clients are wanted, or if they fit into one
leaf.

* `run_leaf`, `nearestBy_leaf` — a single leaf is searched by measuring all clients, whatever the bounds
  are.
* `MetricKind.LosesNone`: a search drops no client by mistake.
* `nearestBy_ranked` — then an index finds the beginning of the rank order.
* `nearestBy_shapeless` — so any two indexes of a roster find the same clients.

With great circles a bound may exceed a distance.  It takes longitudes for points of a line, while
distances are those on a circle: a client at longitude 355 is near a query at longitude -5, but a box from
350 to 360 is taken to be far.  In the usual range, too, rounding can put the bound a few units in the last
place above the distance to a client beside the nearest place of a side.
-/

set_option autoImplicit false

namespace FleetMatch

open Neighbor

open scoped List

/-! ## A single leaf -/

namespace Search

variable {agenda : Agenda} {metric : Metric} {q : Place} {s rest : agenda.State}
  {best best' : Shortlist}

theorem run_of_pop?_eq_none (done : agenda.pop? s = none) : run agenda metric q s best = some best := by
  unfold run
  split
  · rfl
  · rename_i popped
    rw [done] at popped
    cases popped

theorem run_of_visit {v : Visit} {next : agenda.State} (popped : agenda.pop? s = some (v, rest))
    (included : best.excludes v.bound = false)
    (visited : visit agenda metric q best rest v.tree = some (next, best')) :
    run agenda metric q s best = run agenda metric q next best' := by
  rw [run]
  split
  · rename_i done
    rw [popped] at done
    cases done
  · rename_i popped'
    rw [popped] at popped'
    cases popped'
    rw [if_neg (by simp [included])]
    split
    · rename_i unvisited
      rw [visited] at unvisited
      cases unvisited
    · rename_i visited'
      rw [visited] at visited'
      cases visited'
      rfl

/-- **A single leaf is searched by offering all its entries.** -/
theorem run_leaf (xs : List Entry) (box : Region) (bound : Float) (k : Nat) :
    run agenda metric q (agenda.insert ⟨bound, .leaf xs box⟩ agenda.empty) (.empty k) =
      some ((xs.map (measure metric q)).foldl Shortlist.offer (.empty k)) := by
  have one := agenda.toList_insert ⟨bound, .leaf xs box⟩ agenda.empty
  rw [agenda.toList_empty] at one
  cases popped : agenda.pop? (agenda.insert ⟨bound, .leaf xs box⟩ agenda.empty) with
  | none =>
    rw [agenda.eq_nil_of_pop? popped] at one
    exact absurd one.length_eq (by simp)
  | some first =>
    obtain ⟨v, rest⟩ := first
    have taken := (agenda.toList_pop? popped).symm.trans one
    have same : v = ⟨bound, .leaf xs box⟩ := by simpa using taken.subset List.mem_cons_self
    subst same
    have included : (Shortlist.empty k).excludes bound = false := by
      simp [Shortlist.excludes, Shortlist.empty]
    rw [run_of_visit popped included rfl, List.foldl_map]
    refine run_of_pop?_eq_none ?_
    -- Nothing is left: whatever came next would have been put in as well.
    cases again : agenda.pop? rest with
    | none => rfl
    | some next =>
      have more := (agenda.toList_pop? again).length_eq
      have length := taken.length_eq
      simp only [List.length_cons, List.length_nil] at more length
      omega

end Search

namespace Index

variable {halving : Halving} {config : IndexConfig} {roster : Roster} {q : Place} {k : Nat} {ix : Index}

theorem treeOf?_of_le (halving : Halving) {capacity : LeafCapacity} (nonempty : roster ≠ [])
    (fits : roster.length ≤ capacity.entries) :
    ∃ xs box, treeOf? halving capacity roster = some (.leaf xs box) := by
  have some : roster.entries ≠ [] := fun none => nonempty ((Roster.entries_eq_nil_iff roster).1 none)
  obtain ⟨first, rest, -, leaf⟩ := Tree.leafOf_eq roster.entries some
  refine ⟨first :: rest, Region.enclose first.place (rest.map Entry.place), ?_⟩
  rw [treeOf?, dif_neg some, Tree.grow, dif_pos (by rwa [Roster.length_entries]), leaf]
  rfl

/-- **An index with a single leaf measures all clients**, whatever its bounds are. -/
theorem nearestBy_leaf (built : buildBy? halving config roster = .ok ix)
    (fits : roster.length ≤ config.capacity.entries) (bounds : config.metric.BoundsProper q False)
    (agenda : Agenda) (k : Nat) :
    ix.nearestBy agenda q k = some ((roster.ranked config.metric q).take (min k roster.length)) := by
  obtain ⟨accepted, rfl⟩ := buildBy?_eq_ok built
  have distinct := roster.distinct_neighbors config.metric q
  by_cases nonempty : roster = []
  · subst nonempty
    rw [List.length_nil, Nat.min_zero, List.take_zero]
    rfl
  · obtain ⟨tree, htree, bounded, same⟩ :=
      treeOf?_bounded halving config.capacity accepted nonempty (bounds.boundsTree accepted)
    obtain ⟨xs, box, leaf⟩ := treeOf?_of_le halving nonempty fits
    cases htree.symm.trans leaf
    obtain ⟨bound, hb, -⟩ := bounded.hasBound
    simp only [nearestBy, leaf, hb]
    by_cases wanted : k = 0
    · simp [wanted]
    · have pending : roster.neighbors config.metric q ~ xs.map (measure config.metric q) ++ [] := by
        rw [List.append_nil]
        exact same.symm
      have begun := (Search.Progress.start True (min k roster.length) _).perm pending
      obtain ⟨dropped, ended⟩ := begun.foldl_offer distinct
      rw [if_neg wanted, size, Search.run_leaf, Option.map_some, ended.toList_eq trivial distinct,
        Roster.ranked]

end Index

/-! ## Any tree -/

/-- The search for `k` clients in the tree of a roster drops none of them by mistake. -/
def MetricKind.LosesNone (kind : MetricKind) (halving : Halving) (capacity : LeafCapacity)
    (roster : Roster) (q : Place) (k : Nat) : Prop :=
  kind = .euclidean ∨ kind.metric.BoundsTree q True halving capacity roster ∨ roster.length ≤ k ∨
    roster.length ≤ capacity.entries

namespace Index

variable {kind : MetricKind} {capacity capacity' : LeafCapacity} {roster : Roster} {q : Place}
  {k : Nat} {ix : Index}

/-- **An index finds the beginning of the rank order**, if its search drops no client by mistake. -/
theorem nearestBy_ranked {halving : Halving}
    (built : buildBy? halving ⟨kind.metric, capacity⟩ roster = .ok ix)
    (safe : kind.LosesNone halving capacity roster q k) (agenda : Agenda) :
    ix.nearestBy agenda q k = some ((roster.ranked kind.metric q).take (min k roster.length)) := by
  have accepted := (buildBy?_eq_ok built).1
  have distinct := roster.distinct_neighbors kind.metric q
  have proper := kind.boundsProper q
  have lower (below : kind.metric.BoundsTree q True halving capacity roster) :
      ix.nearestBy agenda q k =
        some ((roster.ranked kind.metric q).take (min k roster.length)) := by
    obtain ⟨found, dropped, e, ended⟩ := nearestBy_of_boundsTree built below agenda k
    rw [e, ended.toList_eq trivial distinct, Roster.ranked]
  rcases safe with rfl | below | enough | fits
  · exact lower ((Metric.euclidean_boundsBelow q).boundsProper.boundsTree accepted)
  · exact lower below
  · have all := roster.length_ranked kind.metric q
    rw [nearestBy_of_length_le built proper agenda enough, List.take_of_length_le]
    omega
  · exact nearestBy_leaf built fits proper agenda k

theorem ranked_corners_euclidean : Roster.corners.ranked .euclidean ⟨0.0, 0.0⟩ =
    Roster.corners.entries.map (measure .euclidean ⟨0.0, 0.0⟩) :=
  inRankOrder_eq (List.Perm.refl _) (by decide +kernel)

/-- **Answers do not depend on the shape of the tree**, as long as no client is dropped by mistake: any
two indexes of a roster find the same clients, those of a single leaf. -/
theorem nearestBy_shapeless (accepted : roster.check = .ok ()) (halving halving' : Halving)
    (safe : kind.LosesNone halving capacity roster q k)
    (safe' : kind.LosesNone halving' capacity' roster q k) (agenda agenda' : Agenda) :
    ∃ ix ix' found, buildBy? halving ⟨kind.metric, capacity⟩ roster = .ok ix ∧
      buildBy? halving' ⟨kind.metric, capacity'⟩ roster = .ok ix' ∧
      ix.nearestBy agenda q k = some found ∧ ix'.nearestBy agenda' q k = some found ∧
      found = (roster.ranked kind.metric q).take (min k roster.length) := by
  have built := buildBy?_of_check halving ⟨kind.metric, capacity⟩ accepted
  have built' := buildBy?_of_check halving' ⟨kind.metric, capacity'⟩ accepted
  exact ⟨_, _, _, built, built', nearestBy_ranked built safe agenda,
    nearestBy_ranked built' safe' agenda', rfl⟩

/-- Leaves of one client and a single leaf of three find the same two clients. -/
theorem shapeless_corners :
    ∃ ix ix' found, Roster.corners.check = .ok () ∧
      MetricKind.euclidean.LosesNone Halving.sorting (.ofNat 1) Roster.corners ⟨0.0, 0.0⟩ 2 ∧
      MetricKind.euclidean.LosesNone Halving.sorting (.ofNat 3) Roster.corners ⟨0.0, 0.0⟩ 2 ∧
      buildBy? Halving.sorting ⟨.euclidean, .ofNat 1⟩ Roster.corners = .ok ix ∧
      buildBy? Halving.sorting ⟨.euclidean, .ofNat 3⟩ Roster.corners = .ok ix' ∧
      ix.nearestBy Agenda.heap ⟨0.0, 0.0⟩ 2 = some found ∧
      ix'.nearestBy Agenda.heap ⟨0.0, 0.0⟩ 2 = some found ∧
      found.map (fun n => n.entry.ordinal) = [0, 1] := by
  have safe : MetricKind.euclidean.LosesNone Halving.sorting (.ofNat 1) Roster.corners ⟨0.0, 0.0⟩ 2 :=
    .inl rfl
  have safe' : MetricKind.euclidean.LosesNone Halving.sorting (.ofNat 3) Roster.corners ⟨0.0, 0.0⟩ 2 :=
    .inr (.inr (.inr (by decide)))
  obtain ⟨ix, ix', found, built, built', answer, answer', all⟩ :=
    nearestBy_shapeless Roster.check_corners Halving.sorting Halving.sorting safe safe' Agenda.heap
      Agenda.heap
  refine ⟨ix, ix', found, Roster.check_corners, safe, safe', built, built', answer, answer', ?_⟩
  rw [all, show MetricKind.euclidean.metric = .euclidean from rfl, ranked_corners_euclidean]
  rfl

end Index

end FleetMatch
