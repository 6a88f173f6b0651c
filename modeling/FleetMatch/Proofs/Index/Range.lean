import FleetMatch.Index.Search
import FleetMatch.Proofs.Index.Representation

/-!
# The clients in a box

A range search leaves out the trees whose boxes do not overlap the box that is asked for, while
membership is decided place by place.  The two tests agree on every box, also on one that is inverted,
infinite or has a side that is not a number: a place that lies in two boxes makes them overlap.

* `inside_eq_filter` — a search through a sound tree loses no entry of the box.
* `ascending_eq` — entries in ascending order stand in one order only.
* `range_eq_filter` — the answer of an index is the roster without the clients outside the box.
-/

set_option autoImplicit false

namespace FleetMatch

/-! ## Searching a tree -/

namespace Tree

variable {capacity depth : Nat} {t : Tree}

/-- A sound tree whose box does not overlap a box has no entry in it. -/
theorem Sound.filter_eq_nil {region : Region} (h : Sound capacity depth t)
    (apart : ¬ t.box.intersects region = true) :
    (t.entries.filter fun e => region.contains e.place) = [] := by
  rw [List.filter_eq_nil_iff]
  intro e he inside
  apply apart
  have around : t.box.contains e.place = true :=
    h.tight.contains e.place (List.mem_map_of_mem he)
  exact Region.intersects_of_contains around inside

/-- **A range search through a sound tree finds all entries in the box**, leaf by leaf. -/
theorem Sound.inside_eq_filter (region : Region) (h : Sound capacity depth t) :
    Search.inside region t = t.entries.filter fun e => region.contains e.place := by
  induction h with
  | @leaf depth xs box hs =>
    have whole : Sound capacity depth (.leaf xs box) := .leaf hs
    unfold Search.inside
    split
    · rfl
    · rename_i apart
      exact (whole.filter_eq_nil apart).symm
  | @node depth left right box hs hl hr ihl ihr =>
    have whole : Sound capacity depth (.node left right box) := .node hs hl hr
    unfold Search.inside
    split
    · rw [ihl, ihr, entries, List.filter_append]
    · rename_i apart
      exact (whole.filter_eq_nil apart).symm

/-- Entries in ascending order stand in one order only. -/
theorem ascending_eq {xs ys : List Entry} (same : xs.Perm ys)
    (ordered : ys.Pairwise fun a b => a.ordinal < b.ordinal) : ascending xs = ys := by
  have distinct : (xs.map Entry.ordinal).Nodup := by
    rw [(same.map Entry.ordinal).nodup_iff]
    apply List.pairwise_map.2
    exact ordered.imp fun h => Nat.ne_of_lt h
  refine List.Perm.eq_of_pairwise ?_ (pairwise_ascending distinct) ordered
    ((perm_ascending xs).trans same)
  intro a b _ _ hab hba
  omega

end Tree

namespace Roster

theorem ordered_entries (roster : Roster) :
    roster.entries.Pairwise fun a b => a.ordinal < b.ordinal := by
  apply List.pairwise_map.1
  rw [map_ordinal_entries]
  exact List.pairwise_lt_range

theorem map_client_filter_entries (roster : Roster) (p : Client → Bool) :
    (roster.entries.filter fun e => p e.client).map Entry.client = roster.filter p := by
  have clients : (roster.entries.map Entry.client).filter p = roster.filter p := by
    rw [map_client_entries]
  rw [← clients, List.filter_map]
  rfl

end Roster

/-! ## The answer of an index -/

namespace Index

/-- **The clients in a box**: an index finds the clients of its roster that lie in the box or on its
border, each once and in the order of the input. -/
theorem range_eq_filter {halving : Halving} {config : IndexConfig} {roster : Roster} {ix : Index}
    (built : buildBy? halving config roster = .ok ix) (region : Region) :
    ix.range region = roster.filter fun c => region.contains c.place := by
  obtain ⟨accepted, rfl⟩ := buildBy?_eq_ok built
  by_cases nonempty : roster = []
  · subst nonempty
    rfl
  · obtain ⟨tree, htree, sound, same⟩ := treeOf?_sound halving config.capacity accepted nonempty
    have found : Tree.ascending (Search.inside region tree) =
        roster.entries.filter fun e => region.contains e.place := by
      rw [sound.inside_eq_filter region]
      exact Tree.ascending_eq (same.filter _) (roster.ordered_entries.filter _)
    simp only [range, htree, found]
    exact roster.map_client_filter_entries fun c => region.contains c.place

/-- A box without an upper end on the second axis, whose sides on the first are zeros of either sign. -/
theorem range_corners :
    ∃ ix, buildBy? Halving.sorting ⟨.euclidean, .ofNat 1⟩ Roster.corners = .ok ix ∧
      ix.range ⟨0.0, -0.0, 2.5, 1.0 / 0.0⟩ = Roster.corners.drop 1 := by
  have built := buildBy?_of_check Halving.sorting ⟨.euclidean, .ofNat 1⟩ Roster.check_corners
  refine ⟨_, built, ?_⟩
  rw [range_eq_filter built]
  rfl

end Index

end FleetMatch
