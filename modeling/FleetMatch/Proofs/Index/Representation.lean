import FleetMatch.Index.Build
import FleetMatch.Proofs.Geo.Extent
import FleetMatch.Proofs.Scalar.TotalOrder

/-!
# What a tree of entries looks like

Every answer of an index rests on the tree that was grown over its roster.  `Tree.Sound` says what
holds of each leaf and of each pair of halves, whatever way of halving the tree was grown with.

* `Entry.Precedes`: the order of a split in terms of coordinates; `Entry.precedes_iff` — entries are split
  by it.
* `grow_sound` — a tree that is grown over finite entries with distinct ordinals is sound and holds
  exactly these entries.
* `isFinite_of_check` — all places of a roster that passes the check are finite.
* `built_tree_sound` — the tree of an index is sound, its leaves hold every position of the roster
  once, and the bounds of the index are tight around the roster.
-/

set_option autoImplicit false

namespace FleetMatch

/-! ## Entries of a roster -/

namespace Roster

theorem map_ordinal_entries (roster : Roster) :
    roster.entries.map Entry.ordinal = List.range roster.length := by
  simp only [entries, List.map_map]
  exact (List.zipIdx_map_snd 0 roster).trans List.range_eq_range'.symm

theorem map_client_entries (roster : Roster) : roster.entries.map Entry.client = roster := by
  simp only [entries, List.map_map]
  exact List.zipIdx_map_fst 0 roster

theorem map_place_entries (roster : Roster) :
    roster.entries.map Entry.place = roster.map Client.place := by
  rw [show Entry.place = Client.place ∘ Entry.client from rfl, ← List.map_map, map_client_entries]

theorem length_entries (roster : Roster) : roster.entries.length = roster.length := by
  simp [entries]

theorem entries_eq_nil_iff (roster : Roster) : roster.entries = [] ↔ roster = [] := by
  rw [← List.length_eq_zero_iff, length_entries, List.length_eq_zero_iff]

theorem nodup_ordinal_entries (roster : Roster) : (roster.entries.map Entry.ordinal).Nodup := by
  rw [map_ordinal_entries]
  exact List.nodup_range

theorem isFinite_of_checkFrom {position : Nat} {seen : Std.TreeMap ClientId Nat}
    {clients : List Client} (h : checkFrom position seen clients = .ok ()) :
    ∀ c ∈ clients, c.place.isFinite = true := by
  induction clients generalizing position seen with
  | nil => intro c hc; cases hc
  | cons first rest ih =>
    simp only [checkFrom] at h
    split at h
    · rename_i finite
      split at h
      · cases h
      · intro c hc
        rcases List.mem_cons.1 hc with rfl | hc
        · exact finite
        · exact ih h c hc
    · cases h

/-- All places of a roster that passes the check are finite. -/
theorem isFinite_of_check {roster : Roster} (h : roster.check = .ok ()) :
    ∀ e ∈ roster.entries, e.place.isFinite = true := by
  intro e he
  refine isFinite_of_checkFrom h e.client ?_
  rw [← map_client_entries roster]
  exact List.mem_map_of_mem he

/-- Three places, two of which share a longitude up to the sign of zero. -/
def corners : Roster :=
  [⟨.number 1, ⟨1.0, 0.0⟩, []⟩, ⟨.name "1", ⟨0.0, 2.5⟩, []⟩, ⟨.number 2, ⟨-0.0, 2.5⟩, []⟩]

theorem check_corners : corners.check = .ok () := rfl

end Roster

/-! ## The order of a split -/

namespace Entry

variable {depth : Nat} {a b : Entry}

theorem ordinal_eq_of_splitsBefore (hab : splitsBefore depth a b = true)
    (hba : splitsBefore depth b a = true) : a.ordinal = b.ordinal := by
  simp only [splitsBefore, Bool.or_eq_true, Bool.and_eq_true, decide_eq_true_eq, beq_iff_eq,
    UInt64.lt_iff_toNat_lt, ← UInt64.toNat_inj] at *
  omega

/-- The first entry stands before the second: by the coordinate of the split, for which the negative zero
stands before the positive one, and then by the ordinal. -/
def Precedes (depth : Nat) (a b : Entry) : Prop :=
  (a.along depth < b.along depth ∨ a.along depth = -0.0 ∧ b.along depth = 0.0) ∨
    a.along depth = b.along depth ∧ a.ordinal < b.ordinal

theorem isNaN_along (finite : a.place.isFinite = true) : (a.along depth).isNaN = false := by
  have both : a.place.x.isFinite = true ∧ a.place.y.isFinite = true := Bool.and_eq_true_iff.1 finite
  unfold along
  split
  · exact Scalar.isNaN_of_isFinite both.1
  · exact Scalar.isNaN_of_isFinite both.2

/-- **Entries at finite places are split by their coordinates**, and then by their ordinals. -/
theorem precedes_iff (fa : a.place.isFinite = true) (fb : b.place.isFinite = true) :
    a.Precedes depth b ↔ b.splitsBefore depth a = false := by
  rw [Precedes, ← Scalar.totalKey_lt_iff (isNaN_along fa) (isNaN_along fb), ← Scalar.totalKey_inj,
    Bool.eq_false_iff]
  simp only [splitsBefore, axisKey, ne_eq, Bool.or_eq_true, Bool.and_eq_true, decide_eq_true_eq, beq_iff_eq,
    UInt64.lt_iff_toNat_lt, ← UInt64.toNat_inj]
  omega

end Entry

/-! ## Sound trees -/

namespace Tree

/-- What holds of every leaf. -/
structure LeafSound (capacity : Nat) (xs : List Entry) (box : Region) : Prop where
  nonempty : xs ≠ []
  fits : xs.length ≤ capacity
  ascending : xs.Pairwise fun a b => a.ordinal < b.ordinal
  tight : box.IsTight (xs.map Entry.place)

/-- What holds of every pair of halves: the left one is the smaller half of the entries, and all of it
stands before all of the right one. -/
structure HalvesSound (depth : Nat) (left right : List Entry) (box : Region) : Prop where
  half : left.length = (left.length + right.length) / 2
  apart : ∀ a ∈ left, ∀ b ∈ right, a.Precedes depth b
  tight : box.IsTight ((left ++ right).map Entry.place)

/-- A tree whose root is at the given depth, sound in all of its leaves and halves. -/
inductive Sound (capacity : Nat) : Nat → Tree → Prop
  | leaf {depth : Nat} {xs : List Entry} {box : Region} :
      LeafSound capacity xs box → Sound capacity depth (.leaf xs box)
  | node {depth : Nat} {left right : Tree} {box : Region} :
      HalvesSound depth left.entries right.entries box → Sound capacity (depth + 1) left →
        Sound capacity (depth + 1) right → Sound capacity depth (.node left right box)

theorem Sound.tight {capacity depth : Nat} {t : Tree} (h : Sound capacity depth t) :
    t.box.IsTight (t.entries.map Entry.place) := by
  cases h with
  | leaf h => exact h.tight
  | node h _ _ => exact h.tight

/-! ## Leaves -/

theorem perm_ascending (xs : List Entry) : (ascending xs).Perm xs := List.mergeSort_perm xs _

theorem pairwise_ascending {xs : List Entry} (distinct : (xs.map Entry.ordinal).Nodup) :
    (ascending xs).Pairwise fun a b => a.ordinal < b.ordinal := by
  have sorted : (ascending xs).Pairwise fun a b => decide (a.ordinal ≤ b.ordinal) = true := by
    refine List.pairwise_mergeSort ?_ ?_ xs
    · intro a b c hab hbc
      simp only [decide_eq_true_eq] at *
      omega
    · intro a b
      simp only [Bool.or_eq_true, decide_eq_true_eq]
      omega
  have apart : (ascending xs).Pairwise fun a b => a.ordinal ≠ b.ordinal :=
    List.pairwise_map.1 (((perm_ascending xs).map Entry.ordinal).nodup_iff.2 distinct)
  refine (sorted.and apart).imp ?_
  intro a b h
  have := of_decide_eq_true h.1
  have := h.2
  omega

theorem leafOf_eq (xs : List Entry) (nonempty : xs ≠ []) :
    ∃ first rest, ascending xs = first :: rest ∧ leafOf xs nonempty = ofEntries first rest := by
  unfold leafOf
  split
  · rename_i h
    have := (perm_ascending xs).length_eq
    rw [h] at this
    exact absurd (List.length_eq_zero_iff.1 this.symm) nonempty
  · rename_i first rest h
    exact ⟨first, rest, h, rfl⟩

theorem leafOf_sound {capacity depth : Nat} {xs : List Entry} (nonempty : xs ≠ [])
    (fits : xs.length ≤ capacity) (finite : ∀ e ∈ xs, e.place.isFinite = true)
    (distinct : (xs.map Entry.ordinal).Nodup) :
    Sound capacity depth (leafOf xs nonempty) ∧ (leafOf xs nonempty).entries.Perm xs := by
  obtain ⟨first, rest, h, e⟩ := leafOf_eq xs nonempty
  have same := perm_ascending xs
  have ascends := pairwise_ascending distinct
  rw [h] at same ascends
  rw [e]
  refine ⟨.leaf ⟨List.cons_ne_nil first rest, ?_, ascends, ?_⟩, same⟩
  · rw [same.length_eq]; exact fits
  · refine Region.isTight_enclose first.place (rest.map Entry.place) ?_
    intro p hp
    obtain ⟨x, hx, rfl⟩ := List.mem_map.1 (show p ∈ (first :: rest).map Entry.place from hp)
    exact finite x (same.subset hx)

/-! ## Halves -/

theorem join_sound {capacity depth : Nat} {left right : Tree}
    (hl : Sound capacity (depth + 1) left) (hr : Sound capacity (depth + 1) right)
    (half : left.entries.length = (left.entries.length + right.entries.length) / 2)
    (apart : ∀ a ∈ left.entries, ∀ b ∈ right.entries, a.Precedes depth b) :
    Sound capacity depth (join left right) := by
  refine .node ⟨half, apart, ?_⟩ hl hr
  rw [List.map_append]
  exact Region.isTight_expand hl.tight hr.tight

/-- Entries with distinct ordinals are told apart by a split. -/
theorem precedes_of_split (halving : Halving) {depth : Nat} {xs : List Entry}
    (finite : ∀ e ∈ xs, e.place.isFinite = true) (distinct : (xs.map Entry.ordinal).Nodup) :
    ∀ a ∈ (halving.split depth xs).1, ∀ b ∈ (halving.split depth xs).2, a.Precedes depth b := by
  intro a ha b hb
  have among := halving.perm depth xs
  rw [Entry.precedes_iff (finite a (among.subset (List.mem_append_left _ ha)))
    (finite b (among.subset (List.mem_append_right _ hb))), Bool.eq_false_iff]
  intro hba
  have same := Entry.ordinal_eq_of_splitsBefore (halving.left_before_right depth xs a ha b hb) hba
  have apart := ((halving.perm depth xs).map Entry.ordinal).nodup_iff.2 distinct
  rw [List.map_append, List.nodup_append] at apart
  exact apart.2.2 _ (List.mem_map_of_mem ha) _ (List.mem_map_of_mem hb) same

/-- **A tree that is grown over finite entries with distinct ordinals is sound and holds exactly
these entries.** -/
theorem grow_sound (halving : Halving) (capacity : LeafCapacity) (depth : Nat) (xs : List Entry)
    (nonempty : xs ≠ []) (finite : ∀ e ∈ xs, e.place.isFinite = true)
    (distinct : (xs.map Entry.ordinal).Nodup) :
    Sound capacity.entries depth (grow halving capacity depth xs nonempty) ∧
      (grow halving capacity depth xs nonempty).entries.Perm xs := by
  fun_induction grow halving capacity depth xs nonempty with
  | case1 depth xs nonempty fits => exact leafOf_sound nonempty fits finite distinct
  | case2 depth xs nonempty fits _ lengthLeft lengthRight ihl ihr =>
    have same := halving.perm depth xs
    have distinct' := (same.map Entry.ordinal).nodup_iff.2 distinct
    rw [List.map_append, List.nodup_append] at distinct'
    obtain ⟨soundLeft, permLeft⟩ := ihl
      (fun e he => finite e (same.subset (List.mem_append_left _ he))) distinct'.1
    obtain ⟨soundRight, permRight⟩ := ihr
      (fun e he => finite e (same.subset (List.mem_append_right _ he))) distinct'.2.1
    refine ⟨join_sound soundLeft soundRight ?_ ?_, (permLeft.append permRight).trans same⟩
    · rw [permLeft.length_eq, permRight.length_eq]
      omega
    · intro a ha b hb
      exact precedes_of_split halving finite distinct a (permLeft.subset ha) b (permRight.subset hb)

end Tree

/-! ## Indexes -/

namespace Index

theorem buildBy?_eq_ok {halving : Halving} {config : IndexConfig} {roster : Roster} {ix : Index}
    (h : buildBy? halving config roster = .ok ix) :
    roster.check = .ok () ∧
      ix = ⟨config.metric, config.capacity, roster, treeOf? halving config.capacity roster⟩ := by
  unfold buildBy? at h
  split at h
  · cases h
  · rename_i accepted
    cases h
    exact ⟨accepted, rfl⟩

theorem buildBy?_of_check (halving : Halving) (config : IndexConfig) {roster : Roster}
    (h : roster.check = .ok ()) : buildBy? halving config roster =
      .ok ⟨config.metric, config.capacity, roster, treeOf? halving config.capacity roster⟩ := by
  rw [buildBy?, h]

/-- The tree over a roster that passes the check. -/
theorem treeOf?_sound (halving : Halving) (capacity : LeafCapacity) {roster : Roster}
    (accepted : roster.check = .ok ()) (nonempty : roster ≠ []) :
    ∃ tree, treeOf? halving capacity roster = some tree ∧ tree.Sound capacity.entries 0 ∧
      tree.entries.Perm roster.entries := by
  have h : roster.entries ≠ [] := fun h => nonempty ((Roster.entries_eq_nil_iff roster).1 h)
  refine ⟨Tree.grow halving capacity 0 roster.entries h, ?_, ?_⟩
  · rw [treeOf?, dif_neg h]
  · exact Tree.grow_sound halving capacity 0 roster.entries h (Roster.isFinite_of_check accepted)
      (Roster.nodup_ordinal_entries roster)

/-- **The tree of an index**: it is sound from its root on, its leaves hold the clients of the roster
with every position in exactly one leaf, and the bounds of the index are tight around the roster. -/
theorem built_tree_sound {halving : Halving} {config : IndexConfig} {roster : Roster} {ix : Index}
    (built : buildBy? halving config roster = .ok ix) (nonempty : roster ≠ []) :
    ∃ tree, ix.tree? = some tree ∧
      tree.Sound config.capacity.entries 0 ∧
      tree.entries.Perm roster.entries ∧
      (tree.entries.map Entry.ordinal).Perm (List.range roster.length) ∧
      ∃ box, ix.bounds? = some box ∧ box.IsTight (roster.map Client.place) := by
  obtain ⟨accepted, rfl⟩ := buildBy?_eq_ok built
  obtain ⟨tree, htree, sound, same⟩ := treeOf?_sound halving config.capacity accepted nonempty
  refine ⟨tree, htree, sound, same, ?_, tree.box, ?_, ?_⟩
  · rw [← Roster.map_ordinal_entries]
    exact same.map Entry.ordinal
  · simp only [bounds?, htree, Option.map_some]
  · rw [← Roster.map_place_entries]
    exact sound.tight.perm (same.map Entry.place)

/-- Leaves of one client each, over places that share a longitude up to the sign of zero. -/
theorem corners_tree_sound :
    ∃ ix tree, buildBy? Halving.sorting ⟨.euclidean, .ofNat 1⟩ Roster.corners = .ok ix ∧
      Roster.corners ≠ [] ∧ ix.tree? = some tree ∧ tree.Sound 1 0 ∧
      (tree.entries.map Entry.ordinal).Perm [0, 1, 2] := by
  have built := buildBy?_of_check Halving.sorting ⟨.euclidean, .ofNat 1⟩ Roster.check_corners
  obtain ⟨tree, htree, sound, -, ordinals, -⟩ := built_tree_sound built (List.cons_ne_nil _ _)
  exact ⟨_, tree, built, List.cons_ne_nil _ _, htree, sound, ordinals⟩

end Index

end FleetMatch
