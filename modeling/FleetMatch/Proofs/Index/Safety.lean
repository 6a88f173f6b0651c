import FleetMatch.Proofs.Distance.Kind
import FleetMatch.Proofs.Index.AnyMetric
import FleetMatch.Proofs.Index.Range

/-!
# Nothing fails on a built index

A search clamps coordinates to the sides of boxes, looks clients up by their ordinals, draws boxes around
the places of a leaf and makes room for neighbours.  Each of this could fail on some tree or some number;
none of it does on an index that has been built, whatever is asked of it.

* `Metric.IsBuiltin`: the planar metric, and great circles on a sphere of any radius.
* `Tree.parts`: the trees that a tree consists of, where searches and bounds come by.
* `Tree.Safe`, `Index.Unfailing`: what must not fail, at a part of a tree and at an index.
* `Sound.part`, `Sound.counts` — all parts of a sound tree are sound, and there are less than twice as
  many of them as entries.
* `Sound.safe` — over finite places of a roster, all parts of a sound tree are safe.
* `built_index_unfailing` — every accepted roster has an index, and nothing fails on it.
-/

set_option autoImplicit false

namespace FleetMatch

/-- The planar metric, or great circles on a sphere of some radius. -/
inductive Metric.IsBuiltin : Metric → Prop
  | euclidean : IsBuiltin .euclidean
  | haversine (radius : Float) : IsBuiltin (.haversine radius)

/-- Whatever the radius is, a place has a bound over every proper box. -/
theorem Metric.IsBuiltin.boundsProper {metric : Metric} (builtin : metric.IsBuiltin) (q : Place) :
    metric.BoundsProper q False := by
  cases builtin with
  | euclidean => exact euclidean_boundsProper q
  | haversine radius => exact haversine_boundsProper q radius

/-- The ordinal of an entry is the position of its client. -/
theorem Roster.getElem?_ordinal {roster : Roster} {e : Entry} (h : e ∈ roster.entries) :
    roster[e.ordinal]? = some e.client := by
  obtain ⟨⟨client, ordinal⟩, hm, rfl⟩ := List.mem_map.1 h
  exact List.mk_mem_zipIdx_iff_getElem?.1 hm

namespace Tree

/-- The trees that a tree consists of, itself included. -/
def parts : Tree → List Tree
  | .leaf entries box => [.leaf entries box]
  | .node left right box => .node left right box :: (left.parts ++ right.parts)

/-- What must not fail at a part of a tree over a roster. -/
structure Safe (metric : Metric) (roster : Roster) (t : Tree) : Prop where
  /-- Coordinates are clamped between finite numbers that stand in order. -/
  sides : t.box.IsProper
  /-- So every number can be clamped to them, also one that is not finite. -/
  clamped : ∀ x, (∃ y, Comparable.clamp? x t.box.minX t.box.maxX = some y) ∧
    ∃ y, Comparable.clamp? x t.box.minY t.box.maxY = some y
  /-- Hence every place has a bound. -/
  bounded : ∀ q, ∃ bound, metric.bound? q t.box = some bound
  /-- The box is drawn around some place; so both halves of a split have entries. -/
  nonempty : t.entries ≠ []
  /-- Every ordinal leads to its client. -/
  resolved : ∀ e ∈ t.entries, e.ordinal < roster.length ∧ roster[e.ordinal]? = some e.client

/-! ## Parts of a sound tree -/

variable {capacity depth : Nat} {tree : Tree}

theorem Sound.nonempty (h : Sound capacity depth tree) : tree.entries ≠ [] := by
  induction h with
  | leaf hs => exact hs.nonempty
  | node _ _ _ ihl _ =>
    intro empty
    exact ihl (List.append_eq_nil_iff.1 empty).1

/-- **All parts of a sound tree are sound**, and they hold no entries but those of the tree. -/
theorem Sound.part (h : Sound capacity depth tree) :
    ∀ t ∈ tree.parts, (∃ depth', Sound capacity depth' t) ∧ t.entries ⊆ tree.entries := by
  induction h with
  | @leaf depth xs box hs =>
    intro t ht
    rw [List.mem_singleton.1 ht]
    exact ⟨⟨depth, .leaf hs⟩, List.Subset.refl _⟩
  | @node depth left right box hs hl hr ihl ihr =>
    intro t ht
    rcases List.mem_cons.1 ht with rfl | ht
    · exact ⟨⟨depth, .node hs hl hr⟩, List.Subset.refl _⟩
    · rcases List.mem_append.1 ht with ht | ht
      · obtain ⟨sound, among⟩ := ihl t ht
        exact ⟨sound, List.Subset.trans among (List.subset_append_left _ _)⟩
      · obtain ⟨sound, among⟩ := ihr t ht
        exact ⟨sound, List.Subset.trans among (List.subset_append_right _ _)⟩

/-- A sound tree has no more leaves than entries, and with its halves it consists of less than twice as
many trees. -/
theorem Sound.counts (h : Sound capacity depth tree) :
    tree.shape.leaves ≤ tree.entries.length ∧ tree.shape.nodes + 1 = 2 * tree.shape.leaves ∧
      tree.shape.depth ≤ tree.shape.nodes := by
  induction h with
  | leaf hs =>
    refine ⟨List.length_pos_iff.2 hs.nonempty, rfl, Nat.le_refl 1⟩
  | node _ _ _ ihl ihr =>
    simp only [shape, entries, List.length_append]
    omega

/-- **All parts of a sound tree over finite places of a roster are safe.** -/
theorem Sound.safe {metric : Metric} {roster : Roster} (h : Sound capacity depth tree)
    (builtin : metric.IsBuiltin) (finite : ∀ e ∈ tree.entries, e.place.isFinite = true)
    (listed : tree.entries ⊆ roster.entries) : ∀ t ∈ tree.parts, t.Safe metric roster := by
  intro t ht
  obtain ⟨⟨depth', sound⟩, among⟩ := h.part t ht
  have proper : t.box.IsProper := sound.isProper fun e he => finite e (among he)
  refine ⟨proper, ?_, ?_, sound.nonempty, ?_⟩
  · intro x
    exact ⟨Scalar.clamp?_of_le x proper.ordered.1, Scalar.clamp?_of_le x proper.ordered.2⟩
  · intro q
    obtain ⟨bound, hb, -⟩ := builtin.boundsProper q t.box proper
    exact ⟨bound, hb⟩
  · intro e he
    have found := Roster.getElem?_ordinal (listed (among he))
    exact ⟨(List.getElem?_eq_some_iff.1 found).1, found⟩

end Tree

/-! ## Indexes -/

namespace Index

/-- What must not fail on an index.  A roster in memory has less than `2 ^ 63` clients. -/
structure Unfailing (ix : Index) : Prop where
  /-- All trees that any search may come by are safe. -/
  parts : ∀ tree, ix.tree? = some tree → ∀ t ∈ tree.parts, t.Safe ix.metric ix.roster
  /-- The nearest clients are found, and the ordinals of what is found lead to clients. -/
  nearest : ∀ (agenda : Agenda) (q : Place) (k : Nat), ∃ found, ix.nearestBy agenda q k = some found ∧
    ∀ n ∈ found, ix.roster[n.entry.ordinal]? = some n.client
  within : ∀ (q : Place) (radius : Float), ∃ found, ix.within q radius = some found ∧
    ∀ n ∈ found, ix.roster[n.entry.ordinal]? = some n.client
  range : ∀ region, ∃ found : List Entry, ix.range region = found.map Entry.client ∧
    ∀ e ∈ found, ix.roster[e.ordinal]? = some e.client
  /-- Only without clients there are no bounds. -/
  bounds : ix.bounds? = none ↔ ix.roster = []
  /-- The room for neighbours, with one more to spare, can be counted in 64 bits. -/
  room : ∀ k, ix.roster.length < 0x8000000000000000 → min k ix.size + 1 < UInt64.size
  /-- So can depth, trees and leaves. -/
  counts : ix.roster.length < 0x8000000000000000 → ix.shape.nodes < UInt64.size ∧
    ix.shape.depth ≤ ix.shape.nodes ∧ ix.shape.leaves ≤ ix.shape.nodes

variable {halving : Halving} {config : IndexConfig} {roster : Roster} {ix : Index}

theorem range_resolved (built : buildBy? halving config roster = .ok ix) (region : Region) :
    ∃ found : List Entry, ix.range region = found.map Entry.client ∧
      ∀ e ∈ found, roster[e.ordinal]? = some e.client := by
  refine ⟨roster.entries.filter fun e => region.contains e.place, ?_, ?_⟩
  · rw [range_eq_filter built]
    exact (roster.map_client_filter_entries fun c => region.contains c.place).symm
  · intro e he
    exact Roster.getElem?_ordinal (List.mem_filter.1 he).1

theorem parts_safe (built : buildBy? halving config roster = .ok ix) (builtin : config.metric.IsBuiltin) :
    ∀ tree, ix.tree? = some tree → ∀ t ∈ tree.parts, t.Safe config.metric roster := by
  obtain ⟨accepted, rfl⟩ := buildBy?_eq_ok built
  intro tree htree
  have nonempty : roster ≠ [] := by
    rintro rfl
    cases htree
  obtain ⟨tree', htree', sound, same⟩ := treeOf?_sound halving config.capacity accepted nonempty
  cases htree.symm.trans htree'
  refine sound.safe builtin ?_ same.subset
  intro e he
  exact Roster.isFinite_of_check accepted e (same.subset he)

/-- The counts of a tree are less than twice the number of clients. -/
theorem shape_counts (built : buildBy? halving config roster = .ok ix) :
    ix.shape.nodes ≤ 2 * roster.length ∧ ix.shape.depth ≤ ix.shape.nodes ∧
      ix.shape.leaves ≤ ix.shape.nodes := by
  obtain ⟨accepted, rfl⟩ := buildBy?_eq_ok built
  by_cases nonempty : roster = []
  · subst nonempty
    simp [shape, treeOf?, Roster.entries]
  · obtain ⟨tree, htree, sound, same⟩ := treeOf?_sound halving config.capacity accepted nonempty
    have counts := sound.counts
    rw [same.length_eq, Roster.length_entries] at counts
    simp only [shape, htree, Option.map_some, Option.getD_some]
    omega

theorem bounds?_eq_none_iff (built : buildBy? halving config roster = .ok ix) :
    ix.bounds? = none ↔ roster = [] := by
  obtain ⟨accepted, rfl⟩ := buildBy?_eq_ok built
  rw [bounds?, Option.map_eq_none_iff, ← Roster.entries_eq_nil_iff, treeOf?]
  split
  · rename_i empty
    exact ⟨fun _ => empty, fun _ => rfl⟩
  · rename_i inhabited
    refine ⟨?_, fun h => absurd h inhabited⟩
    intro h
    cases h

theorem roster_of_built (built : buildBy? halving config roster = .ok ix) :
    ix.roster = roster ∧ ix.metric = config.metric := by
  obtain ⟨-, rfl⟩ := buildBy?_eq_ok built
  exact ⟨rfl, rfl⟩

theorem unfailing_of_built (built : buildBy? halving config roster = .ok ix)
    (builtin : config.metric.IsBuiltin) : ix.Unfailing := by
  obtain ⟨sameRoster, sameMetric⟩ := roster_of_built built
  constructor <;> rw [sameRoster]
  case parts =>
    rw [sameMetric]
    exact parts_safe built builtin
  case nearest =>
    intro agenda q k
    obtain ⟨found, e, listing, -⟩ := nearestBy_listing built (builtin.boundsProper q) agenda k
    exact ⟨found, e, fun n hn => Roster.getElem?_ordinal (listing.measured n hn).1⟩
  case within =>
    intro q radius
    obtain ⟨found, e, listing, -⟩ := within_listing built (builtin.boundsProper q) radius
    exact ⟨found, e, fun n hn => Roster.getElem?_ordinal (listing.measured n hn).1⟩
  case range => exact range_resolved built
  case bounds => exact bounds?_eq_none_iff built
  case room =>
    intro k few
    rw [size, sameRoster]
    have room : min k roster.length + 1 ≤ 0x8000000000000000 := by omega
    exact Nat.lt_of_le_of_lt room (by decide)
  case counts =>
    intro few
    obtain ⟨nodes, rest⟩ := shape_counts built
    have room : 2 * roster.length < UInt64.size := by
      rw [UInt64.size]
      omega
    exact ⟨Nat.lt_of_le_of_lt nodes room, rest⟩

/-- **Nothing fails on a built index.**  Every roster that passes the check has an index, for every
capacity of leaves, zero included, and for each of the metrics, on a sphere of any radius.  Whatever is
asked of the index is answered: for any place, finite or not, any number of clients, any distance and any
box. -/
theorem built_index_unfailing (halving : Halving) {metric : Metric} (builtin : metric.IsBuiltin)
    (leafCapacity : Nat) (accepted : roster.check = .ok ()) :
    ∃ ix, buildBy? halving ⟨metric, .ofNat leafCapacity⟩ roster = .ok ix ∧
      ix.roster = roster ∧ ix.metric = metric ∧ ix.Unfailing := by
  have built := buildBy?_of_check halving ⟨metric, .ofNat leafCapacity⟩ accepted
  exact ⟨_, built, rfl, rfl, unfailing_of_built built builtin⟩

/-- Leaves of a capacity given as zero, on a sphere whose radius is not a number, and a query from nowhere
for more clients than there can be. -/
theorem corners_unfailing : (Metric.haversine (0.0 / 0.0)).IsBuiltin ∧ Roster.corners.check = .ok () ∧
    ∃ ix found, buildBy? Halving.sorting ⟨.haversine (0.0 / 0.0), .ofNat 0⟩ Roster.corners = .ok ix ∧
      ix.nearestBy Agenda.heap ⟨0.0 / 0.0, 1.0 / 0.0⟩ 0xFFFFFFFFFFFFFFFF = some found ∧
      min 0xFFFFFFFFFFFFFFFF ix.size + 1 < UInt64.size := by
  obtain ⟨ix, built, roster, -, unfailing⟩ :=
    built_index_unfailing Halving.sorting (.haversine (0.0 / 0.0)) 0 Roster.check_corners
  obtain ⟨found, e, -⟩ := unfailing.nearest Agenda.heap ⟨0.0 / 0.0, 1.0 / 0.0⟩ 0xFFFFFFFFFFFFFFFF
  refine ⟨.haversine _, Roster.check_corners, ix, found, built, e, unfailing.room _ ?_⟩
  rw [roster]
  decide

end Index

end FleetMatch
