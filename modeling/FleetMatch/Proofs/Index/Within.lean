import FleetMatch.Proofs.Index.Nearest

/-!
# The clients up to a distance

A tree is left out if its bound is above the radius.  Bounds and radius are compared as numbers, but
neighbours are ranked in an order that has a place for everything, what is not a number included.

* `Tree.upTo`: the neighbours of a tree up to a distance, found by measuring everything.
* `HasBound.upTo_eq_nil` — a tree with a lower bound above the radius has none.
* `collect_sublist` — a search through a tree finds some of them, and with lower bounds all of them.
* `within_eq_inRankOrder` — what an index finds is put into rank order.
* `within_eq_filter` — the answer of an index is the answer found by measuring everything.  It is a
  beginning of the rank order of all clients.
-/

set_option autoImplicit false

namespace FleetMatch

open Neighbor

open scoped List

namespace Tree

variable {metric : Metric} {q : Place} {lower : Prop} {radius : Float}

/-- The neighbours of a tree up to a distance. -/
def upTo (metric : Metric) (q : Place) (radius : Float) (t : Tree) : List Neighbor :=
  (t.neighbors metric q).filter fun n => decide (n.distance ≤ radius)

theorem upTo_node (left right : Tree) (box : Region) :
    upTo metric q radius (.node left right box) =
      upTo metric q radius left ++ upTo metric q radius right := by
  simp only [upTo, neighbors, entries, List.map_append, List.filter_append]

/-- **A tree with a lower bound above the radius has no neighbours up to the radius.** -/
theorem HasBound.upTo_eq_nil {t : Tree} {bound : Float} (h : HasBound metric q lower t)
    (hb : metric.bound? q t.box = some bound) (above : radius < bound) :
    lower → t.upTo metric q radius = [] := by
  intro hl
  obtain ⟨bound', he, below⟩ := h
  cases hb.symm.trans he
  rw [upTo, List.filter_eq_nil_iff]
  intro n hn
  rw [decide_eq_true_eq]
  exact Scalar.not_le_of_lt_of_rankLE above (below hl n hn)

end Tree

namespace Search

open FleetMatch.Tree

variable {metric : Metric} {q : Place} {lower : Prop}

/-- **A search through a tree finds neighbours up to the radius, and with lower bounds it finds all of
them.** -/
theorem collect_sublist (radius : Float) {t : Tree} (h : t.Bounded metric q lower) :
    ∃ found, collect metric q radius t = some found ∧ found <+ t.upTo metric q radius ∧
      (lower → found = t.upTo metric q radius) := by
  induction h with
  | @leaf xs box h =>
    have ⟨bound, (hb : metric.bound? q box = some bound), _⟩ := h
    simp only [collect, hb, Option.map_some]
    by_cases above : radius < bound
    · refine ⟨[], by rw [if_pos above], List.nil_sublist _, ?_⟩
      intro hl
      exact (h.upTo_eq_nil hb above hl).symm
    · refine ⟨upTo metric q radius (.leaf xs box), ?_, List.Sublist.refl _, fun _ => rfl⟩
      rw [if_neg above]
      rfl
  | @node left right box h _ _ ihl ihr =>
    have ⟨bound, (hb : metric.bound? q box = some bound), _⟩ := h
    obtain ⟨inLeft, eLeft, subLeft, allLeft⟩ := ihl
    obtain ⟨inRight, eRight, subRight, allRight⟩ := ihr
    simp only [collect, hb, eLeft, eRight]
    by_cases above : radius < bound
    · refine ⟨[], by rw [if_pos above], List.nil_sublist _, ?_⟩
      intro hl
      exact (h.upTo_eq_nil hb above hl).symm
    · refine ⟨inLeft ++ inRight, by rw [if_neg above], ?_, ?_⟩
      · rw [upTo_node]
        exact subLeft.append subRight
      · intro hl
        rw [upTo_node, allLeft hl, allRight hl]

end Search

namespace Index

open Search

variable {halving : Halving} {roster : Roster} {ix : Index} {q : Place}

/-- What ranks before a client up to a distance is up to that distance as well. -/
theorem filter_upTo_prefix {all : List Neighbor} (distinct : Distinct all) (radius : Float) :
    (inRankOrder all).filter (fun n => decide (n.distance ≤ radius)) <+: inRankOrder all := by
  refine filter_prefix (ranked_inRankOrder distinct) ?_
  intro a b hab hb
  rw [decide_eq_true_eq] at hb ⊢
  exact Scalar.le_of_rankLE_of_le (rankLE_of_ranksBefore hab) hb

theorem within_eq_nil (ix : Index) (q : Place) {radius : Float}
    (h : radius.isNaN = true ∨ radius < 0.0) : ix.within q radius = some [] := by
  unfold within
  split
  · rfl
  · rw [if_pos (by simpa using h)]

/-- Any other radius: the tree of an index lists all neighbours in some order, and of those up to the
radius a search finds a part, with lower bounds all of them. -/
theorem within_eq_inRankOrder {config : IndexConfig} {radius : Float} {lower : Prop}
    (built : buildBy? halving config roster = .ok ix) (bounds : config.metric.BoundsProper q lower)
    (h : ¬ (radius.isNaN = true ∨ radius < 0.0)) :
    ∃ all found, all ~ roster.neighbors config.metric q ∧
      ix.within q radius = some (inRankOrder found) ∧
      found <+ all.filter (fun n => decide (n.distance ≤ radius)) ∧
      (lower → found = all.filter fun n => decide (n.distance ≤ radius)) := by
  obtain ⟨accepted, rfl⟩ := buildBy?_eq_ok built
  by_cases nonempty : roster = []
  · subst nonempty
    refine ⟨[], [], List.Perm.refl _, ?_, List.nil_sublist _, fun _ => rfl⟩
    simp [within, treeOf?, Roster.entries, inRankOrder]
  · obtain ⟨tree, htree, bounded, same⟩ :=
      treeOf?_bounded halving config.capacity accepted nonempty (bounds.boundsTree accepted)
    obtain ⟨found, e, part, complete⟩ := collect_sublist radius bounded
    refine ⟨tree.neighbors config.metric q, found, same, ?_, part, complete⟩
    simp only [within, htree]
    rw [if_neg (by simpa using h), e, Option.map_some]

theorem within_eq_some {config : IndexConfig} {radius : Float}
    (built : buildBy? halving config roster = .ok ix) (contract : config.metric.BoundsBelow q)
    (h : ¬ (radius.isNaN = true ∨ radius < 0.0)) :
    ix.within q radius = some ((roster.ranked config.metric q).filter
      fun n => decide (n.distance ≤ radius)) := by
  obtain ⟨all, found, same, e, -, complete⟩ := within_eq_inRankOrder built contract.boundsProper h
  rw [e, complete trivial]
  exact congrArg some (inRankOrder_filter (roster.distinct_neighbors config.metric q) same _)

/-- **The clients up to a distance**: for a metric that keeps its promise about bounds, an index finds
what is found by measuring all clients, putting them into rank order and keeping those up to the
radius.  These come first among all clients.  A radius below zero, or none at all, finds nothing. -/
theorem within_eq_filter {metric : Metric} {leafCapacity : Nat}
    (built : buildBy? halving ⟨metric, .ofNat leafCapacity⟩ roster = .ok ix)
    (contract : metric.BoundsBelow q) (agenda : Agenda) (radius : Float) :
    ∃ found all, ix.within q radius = some found ∧
      ix.nearestBy agenda q roster.length = some all ∧
      (radius.isNaN = true ∨ radius < 0.0 → found = []) ∧
      (¬ (radius.isNaN = true ∨ radius < 0.0) →
        found = (roster.ranked metric q).filter fun n => decide (n.distance ≤ radius)) ∧
      (∀ n ∈ found, n.distance.isNaN = false) ∧
      found <+: all := by
  have distinct := roster.distinct_neighbors metric q
  obtain ⟨listed, _, eAll, ended⟩ :=
    nearestBy_progress built contract.boundsProper agenda roster.length
  have ranking : listed.toList = roster.ranked metric q := by
    rw [ended.toList_eq trivial distinct, Nat.min_self, ← Roster.ranked,
      List.take_of_length_le (Nat.le_of_eq (roster.length_ranked metric q))]
  by_cases h : radius.isNaN = true ∨ radius < 0.0
  · refine ⟨[], listed.toList, within_eq_nil ix q h, eAll, fun _ => rfl, ?_, ?_, List.nil_prefix⟩
    · intro searched
      exact absurd h searched
    · intro n hn
      cases hn
  · refine ⟨_, listed.toList, within_eq_some built contract h, eAll, ?_, fun _ => rfl, ?_, ?_⟩
    · intro refused
      exact absurd refused h
    · intro n hn
      have reached := of_decide_eq_true (List.mem_filter.1 hn).2
      exact ((Scalar.le_iff n.distance radius).1 reached).1
    · rw [ranking]
      exact filter_upTo_prefix distinct radius

/-- Zero with a minus sign is a radius like zero. -/
theorem within_corners :
    ∃ ix found all, buildBy? Halving.sorting ⟨.eastward, .ofNat 0⟩ Roster.corners = .ok ix ∧
      Metric.eastward.BoundsBelow ⟨0.0, 0.0⟩ ∧ ix.within ⟨0.0, 0.0⟩ (-0.0) = some found ∧
      ix.nearestBy Agenda.heap ⟨0.0, 0.0⟩ 3 = some all ∧
      found.map (fun n => n.entry.ordinal) = [1, 2] ∧ found <+: all := by
  have built := buildBy?_of_check Halving.sorting ⟨.eastward, .ofNat 0⟩ Roster.check_corners
  have contract := Metric.eastward_boundsBelow ⟨0.0, 0.0⟩
  obtain ⟨found, all, e, eAll, -, reached, -, first⟩ :=
    within_eq_filter built contract Agenda.heap (-0.0)
  refine ⟨_, found, all, built, contract, e, eAll, ?_, first⟩
  rw [reached (by decide +kernel), Roster.ranked_corners]
  rfl

end Index

end FleetMatch
