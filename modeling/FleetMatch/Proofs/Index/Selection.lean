import FleetMatch.Proofs.Index.Representation
import Mathlib.Data.List.Nodup

/-!
# Selecting the median grows the tree of full sorting

A split needs no sorting: it is enough that the entry in the middle stands where sorting would put it,
with nothing greater before it and nothing smaller behind it.  In which order the other entries then
stand is left open, and the halves go in this order into the next splits, where the axis is another one.
The tree does not show it: only which entries go to a half counts, and the order of a split tells any
two of them apart.

* `Selection`: any way to bring one entry of a list into its place; `Selection.halving`: the halves that
  it makes.
* `Entry.eq_of_pairwise` — entries with distinct ordinals stand in an order of theirs in one way only.
* `Halving.perm_sorting` — the halves of any halving are those of sorting, up to the order within them.
* `Tree.grow_eq_sorting` — so every halving grows the tree that sorting grows.
* `Tree.BySorting`: the tree that full sorting makes, said without halvings.
* `Tree.grow_selecting` — two selections, given the same entries in any two orders, grow this tree.
-/

set_option autoImplicit false

namespace FleetMatch

/-! ## Selections -/

/-- A way to bring the entry at one position of a list into its place.  The order is given by a test for
"at or before", which has to be total and transitive. -/
structure Selection where
  /-- The list with the entry at a position in its place. -/
  select : (Entry → Entry → Bool) → Nat → List Entry → List Entry
  /-- Entries are only moved. -/
  perm : ∀ le position xs, (select le position xs).Perm xs
  /-- Nothing greater stands before the position, and nothing smaller behind it. -/
  inPlace : ∀ (le : Entry → Entry → Bool) position xs, (∀ a b, (le a b || le b a) = true) →
    (∀ a b c, le a b = true → le b c = true → le a c = true) → position < xs.length →
    ∃ before median after, select le position xs = before ++ median :: after ∧
      before.length = position ∧ (∀ a ∈ before, le a median = true) ∧ ∀ b ∈ after, le median b = true

namespace Selection

variable (selection : Selection)

theorem length_select (le : Entry → Entry → Bool) (position : Nat) (xs : List Entry) :
    (selection.select le position xs).length = xs.length :=
  (selection.perm le position xs).length_eq

/-- Nothing that stands from the position on belongs before what stands in front of it. -/
theorem le_of_mem_take_drop {le : Entry → Entry → Bool} {position : Nat} {xs : List Entry}
    (total : ∀ a b, (le a b || le b a) = true)
    (trans : ∀ a b c, le a b = true → le b c = true → le a c = true) {a b : Entry}
    (ha : a ∈ (selection.select le position xs).take position)
    (hb : b ∈ (selection.select le position xs).drop position) : le a b = true := by
  have inside : position < xs.length := by
    have left := List.length_pos_of_mem hb
    rw [List.length_drop, length_select] at left
    omega
  obtain ⟨before, median, after, arranged, length, smaller, greater⟩ :=
    selection.inPlace le position xs total trans inside
  rw [arranged, List.take_left' length] at ha
  rw [arranged, List.drop_left' length] at hb
  have below := smaller a ha
  rcases List.mem_cons.1 hb with rfl | hb
  · exact below
  · exact trans a median b below (greater b hb)

theorem length_take_select (le : Entry → Entry → Bool) (xs : List Entry) :
    ((selection.select le (xs.length / 2) xs).take (xs.length / 2)).length = xs.length / 2 := by
  rw [List.length_take, length_select]
  exact Nat.min_eq_left (Nat.div_le_self _ 2)

/-- The halves before and from the median on, once the median has been brought into its place. -/
def halving : Halving where
  split depth xs :=
    let arranged := selection.select (Entry.splitsBefore depth) (xs.length / 2) xs
    (arranged.take (xs.length / 2), arranged.drop (xs.length / 2))
  perm depth xs := by
    simp only [List.take_append_drop]
    exact selection.perm _ _ xs
  length_left depth xs := selection.length_take_select (Entry.splitsBefore depth) xs
  left_before_right depth _ _ ha _ hb :=
    selection.le_of_mem_take_drop (Entry.splitsBefore_total depth) (Entry.splitsBefore_trans depth) ha hb

/-- Sorts the entries and then turns around what stands before the position. -/
def turning : Selection where
  select le position xs :=
    let sorted := xs.mergeSort le
    (sorted.take position).reverse ++ sorted.drop position
  perm le position xs := by
    have whole := List.mergeSort_perm xs le
    rw [← List.take_append_drop position (xs.mergeSort le)] at whole
    exact ((List.reverse_perm _).append_right _).trans whole
  inPlace le position xs total trans inside := by
    have sorted := List.pairwise_mergeSort trans total xs
    have inside' : position < (xs.mergeSort le).length := by rwa [List.length_mergeSort]
    rw [← List.take_append_drop position (xs.mergeSort le), List.drop_eq_getElem_cons inside'] at sorted
    obtain ⟨-, behind, across⟩ := List.pairwise_append.1 sorted
    refine ⟨((xs.mergeSort le).take position).reverse, (xs.mergeSort le)[position],
      (xs.mergeSort le).drop (position + 1), ?_, ?_, ?_, ?_⟩
    · simp only [List.drop_eq_getElem_cons inside']
    · rw [List.length_reverse, List.length_take]
      omega
    · intro a ha
      exact across a (List.mem_reverse.1 ha) _ List.mem_cons_self
    · exact (List.pairwise_cons.1 behind).1

end Selection

/-! ## Orders of entries -/

/-- **Entries with distinct ordinals stand in an order of theirs in one way only**, if the order tells
different ordinals apart. -/
theorem Entry.eq_of_pairwise {le : Entry → Entry → Bool}
    (apart : ∀ a b, le a b = true → le b a = true → a.ordinal = b.ordinal) {as bs : List Entry}
    (distinct : (as.map Entry.ordinal).Nodup) (sorted : as.Pairwise fun a b => le a b = true)
    (sorted' : bs.Pairwise fun a b => le a b = true) (same : as.Perm bs) : as = bs := by
  refine List.Perm.eq_of_pairwise ?_ sorted sorted' same
  intro a b ha hb hab hba
  exact List.inj_on_of_nodup_map distinct ha (same.symm.subset hb) (apart a b hab hba)

namespace Halving

variable (halving : Halving) (depth : Nat) {xs ys : List Entry}

theorem pairwise_sorted (xs : List Entry) : (xs.mergeSort (Entry.splitsBefore depth)).Pairwise
    fun a b => a.splitsBefore depth b = true :=
  List.pairwise_mergeSort (Entry.splitsBefore_trans depth) (Entry.splitsBefore_total depth) xs

/-- Sorting does not show in which order the entries were given. -/
theorem split_sorting_eq (same : xs.Perm ys) (distinct : (xs.map Entry.ordinal).Nodup) :
    sorting.split depth xs = sorting.split depth ys := by
  have moved := List.mergeSort_perm xs (Entry.splitsBefore depth)
  have one : xs.mergeSort (Entry.splitsBefore depth) = ys.mergeSort (Entry.splitsBefore depth) :=
    Entry.eq_of_pairwise (fun _ _ => Entry.ordinal_eq_of_splitsBefore)
      ((moved.map Entry.ordinal).nodup_iff.2 distinct) (pairwise_sorted depth xs)
      (pairwise_sorted depth ys) (moved.trans (same.trans (List.mergeSort_perm ys _).symm))
  simp only [sorting, one, same.length_eq]

/-- **The halves of any halving are those of sorting**, up to the order within them. -/
theorem perm_sorting (distinct : (xs.map Entry.ordinal).Nodup) :
    (halving.split depth xs).1.Perm (sorting.split depth xs).1 ∧
      (halving.split depth xs).2.Perm (sorting.split depth xs).2 := by
  have before := halving.left_before_right depth xs
  have whole := halving.perm depth xs
  have length := halving.length_left depth xs
  generalize halving.split depth xs = halves at before whole length
  obtain ⟨left, right⟩ := halves
  have permLeft := List.mergeSort_perm left (Entry.splitsBefore depth)
  have permRight := List.mergeSort_perm right (Entry.splitsBefore depth)
  have moved := (permLeft.append permRight).trans whole
  -- Sorting each half sorts the whole, so the halves are what is cut off the whole in the middle.
  have sorted : (left.mergeSort (Entry.splitsBefore depth) ++
      right.mergeSort (Entry.splitsBefore depth)).Pairwise fun a b => a.splitsBefore depth b = true := by
    refine List.pairwise_append.2 ⟨pairwise_sorted depth left, pairwise_sorted depth right, ?_⟩
    intro a ha b hb
    exact before a (permLeft.subset ha) b (permRight.subset hb)
  have one := Entry.eq_of_pairwise (fun _ _ => Entry.ordinal_eq_of_splitsBefore)
    ((moved.map Entry.ordinal).nodup_iff.2 distinct) sorted (pairwise_sorted depth xs)
    (moved.trans (List.mergeSort_perm xs _).symm)
  have half : (left.mergeSort (Entry.splitsBefore depth)).length = xs.length / 2 := by
    rw [List.length_mergeSort, length]
  constructor
  · show left.Perm ((xs.mergeSort (Entry.splitsBefore depth)).take (xs.length / 2))
    rw [← one, List.take_left' half]
    exact permLeft.symm
  · show right.Perm ((xs.mergeSort (Entry.splitsBefore depth)).drop (xs.length / 2))
    rw [← one, List.drop_left' half]
    exact permRight.symm

end Halving

/-! ## Trees -/

namespace Tree

variable {xs ys : List Entry}

/-- A leaf does not show in which order its entries were given. -/
theorem leafOf_congr (same : xs.Perm ys) (distinct : (xs.map Entry.ordinal).Nodup) (nonempty : xs ≠ [])
    (nonempty' : ys ≠ []) : leafOf xs nonempty = leafOf ys nonempty' := by
  have distinct' := (same.map Entry.ordinal).nodup_iff.1 distinct
  have one : ascending xs = ascending ys := by
    refine List.Perm.eq_of_pairwise ?_ (pairwise_ascending distinct) (pairwise_ascending distinct')
      ((perm_ascending xs).trans (same.trans (perm_ascending ys).symm))
    intro a b _ _ hab hba
    omega
  obtain ⟨first, rest, listed, leaf⟩ := leafOf_eq xs nonempty
  obtain ⟨first', rest', listed', leaf'⟩ := leafOf_eq ys nonempty'
  rw [one, listed'] at listed
  obtain ⟨rfl, rfl⟩ := List.cons.inj listed
  rw [leaf, leaf']

/-- **Every halving grows the tree that sorting grows**, and it does so from the entries in any order. -/
theorem grow_eq_sorting (halving : Halving) (capacity : LeafCapacity) (depth : Nat) (same : xs.Perm ys)
    (distinct : (xs.map Entry.ordinal).Nodup) (nonempty : xs ≠ []) (nonempty' : ys ≠ []) :
    grow halving capacity depth xs nonempty = grow Halving.sorting capacity depth ys nonempty' := by
  fun_induction grow halving capacity depth xs nonempty generalizing ys with
  | case1 depth xs nonempty fits =>
    rw [grow, dif_pos (same.length_eq ▸ fits)]
    exact leafOf_congr same distinct nonempty nonempty'
  | case2 depth xs nonempty fits _ lengthLeft lengthRight ihl ihr =>
    have parts := ((halving.perm depth xs).map Entry.ordinal).nodup_iff.2 distinct
    rw [List.map_append, List.nodup_append] at parts
    obtain ⟨permLeft, permRight⟩ := halving.perm_sorting depth distinct
    rw [Halving.split_sorting_eq depth same distinct] at permLeft permRight
    conv_rhs => rw [grow, dif_neg (same.length_eq ▸ fits)]
    exact congrArg₂ join (ihl permLeft parts.1 _) (ihr permRight parts.2.1 _)

/-- The tree that full sorting makes of some entries.  If they fit into one leaf, they stand in it by
ordinals, with the box that is drawn around them one by one; else they are sorted by the axis of the depth
and then by ordinals, and cut in the middle. -/
inductive BySorting (capacity : LeafCapacity) : Nat → List Entry → Tree → Prop
  | leaf {depth : Nat} {xs : List Entry} {first : Entry} {rest : List Entry}
      (fits : xs.length ≤ capacity.entries)
      (sorted : xs.mergeSort (fun a b => a.ordinal ≤ b.ordinal) = first :: rest) :
      BySorting capacity depth xs
        (.leaf (first :: rest) (Region.enclose first.place (rest.map Entry.place)))
  | node {depth : Nat} {xs : List Entry} {left right : Tree} (large : capacity.entries < xs.length)
      (below : BySorting capacity (depth + 1)
        ((xs.mergeSort (Entry.splitsBefore depth)).take (xs.length / 2)) left)
      (above : BySorting capacity (depth + 1)
        ((xs.mergeSort (Entry.splitsBefore depth)).drop (xs.length / 2)) right) :
      BySorting capacity depth xs (.node left right (Region.expand left.box right.box))

variable {capacity : LeafCapacity} {depth : Nat} {t t' : Tree}

theorem BySorting.eq (h : BySorting capacity depth xs t) (h' : BySorting capacity depth xs t') : t = t' := by
  induction h generalizing t' with
  | leaf fits sorted =>
    cases h' with
    | leaf _ sorted' =>
      obtain ⟨rfl, rfl⟩ := List.cons.inj (sorted.symm.trans sorted')
      rfl
    | node large _ _ => omega
  | node large _ _ ihl ihr =>
    cases h' with
    | leaf fits _ => omega
    | node _ below above => rw [ihl below, ihr above]

theorem bySorting_grow (capacity : LeafCapacity) (depth : Nat) (nonempty : xs ≠ []) :
    BySorting capacity depth xs (grow Halving.sorting capacity depth xs nonempty) := by
  fun_induction grow Halving.sorting capacity depth xs nonempty with
  | case1 depth xs nonempty fits =>
    obtain ⟨first, rest, sorted, leaf⟩ := leafOf_eq xs nonempty
    rw [leaf]
    exact .leaf fits sorted
  | case2 depth xs nonempty large _ _ _ ihl ihr => exact .node (by omega) ihl ihr

/-- **Selection grows the tree of full sorting.**  Any two selections, given the same entries in any two
orders, grow the same tree, and this is the one tree that full sorting makes. -/
theorem grow_selecting (selection selection' : Selection) (capacity : LeafCapacity) (depth : Nat)
    (same : xs.Perm ys) (distinct : (xs.map Entry.ordinal).Nodup) (nonempty : xs ≠ [])
    (nonempty' : ys ≠ []) :
    ∃ tree, (∀ t, BySorting capacity depth xs t ↔ t = tree) ∧
      grow selection.halving capacity depth xs nonempty = tree ∧
      grow selection'.halving capacity depth ys nonempty' = tree := by
  have reference := bySorting_grow capacity depth nonempty
  have distinct' := (same.map Entry.ordinal).nodup_iff.1 distinct
  refine ⟨grow Halving.sorting capacity depth xs nonempty, ?_, ?_, ?_⟩
  · intro t
    exact ⟨fun h => h.eq reference, fun h => h ▸ reference⟩
  · exact grow_eq_sorting selection.halving capacity depth (.refl xs) distinct nonempty nonempty
  · exact grow_eq_sorting selection'.halving capacity depth same.symm distinct' nonempty' nonempty

/-- Two places with one latitude, and with longitudes that differ in the sign of zero only, at a depth
where latitudes are compared first; once in the order of the roster and once turned around. -/
theorem grow_selecting_corners :
    ∃ tree, Roster.corners.entries.Perm Roster.corners.entries.reverse ∧
      BySorting (.ofNat 1) 1 Roster.corners.entries tree ∧
      grow Selection.turning.halving (.ofNat 1) 1 Roster.corners.entries.reverse (by decide) = tree := by
  have same : Roster.corners.entries.Perm Roster.corners.entries.reverse := (List.reverse_perm _).symm
  obtain ⟨tree, reference, -, grown⟩ := grow_selecting Selection.turning Selection.turning (.ofNat 1) 1 same
    (Roster.nodup_ordinal_entries _) (by decide) (by decide)
  exact ⟨tree, same, (reference tree).2 rfl, grown⟩

end Tree

end FleetMatch
