import FleetMatch.Distance.Metric
import FleetMatch.Distance.Euclidean
import FleetMatch.Index.Split

/-!
# Building an index

An index holds a roster in the order of the input and a tree over it, and measures with one metric.

* `Tree.grow`: the tree over some entries.  Entries that fit one leaf form a leaf, in ascending
  order; others are split into halves, and so on.
* `Index.buildBy?`, `Index.build?`: the index of a roster, or why the roster is refused.  An index
  without clients has no tree.
-/

namespace FleetMatch

/-- How many entries a leaf may hold, at least one. -/
structure LeafCapacity where
  entries : Nat
  pos : 0 < entries

/-- The capacity for a number that may be zero. -/
def LeafCapacity.ofNat (n : Nat) : LeafCapacity := ⟨max n 1, by omega⟩

/-- The capacity of leaves if nothing else is asked for. -/
def LeafCapacity.standard : LeafCapacity := ⟨16, by decide⟩

namespace Tree

/-- Entries by ascending ordinals. -/
def ascending (xs : List Entry) : List Entry := xs.mergeSort fun a b => a.ordinal ≤ b.ordinal

/-- The leaf of some entries, in ascending order. -/
def leafOf (xs : List Entry) (nonempty : xs ≠ []) : Tree :=
  match h : ascending xs with
  | [] => absurd (List.length_eq_zero_iff.1 (by
      have := congrArg List.length h
      simpa [ascending] using this)) nonempty
  | first :: rest => ofEntries first rest

/-- The tree over some entries, whose root is at the given depth. -/
def grow (halving : Halving) (capacity : LeafCapacity) (depth : Nat) (xs : List Entry)
    (nonempty : xs ≠ []) : Tree :=
  if fits : xs.length ≤ capacity.entries then leafOf xs nonempty
  else
    have := capacity.pos
    have left := halving.length_left depth xs
    have right := halving.length_right depth xs
    join
      (grow halving capacity (depth + 1) (halving.split depth xs).1 (by
        intro h; simp only [h, List.length_nil] at left; omega))
      (grow halving capacity (depth + 1) (halving.split depth xs).2 (by
        intro h; simp only [h, List.length_nil] at right; omega))
termination_by xs.length

end Tree

/-- What an index is built with. -/
structure IndexConfig where
  metric : Metric := Metric.euclidean
  capacity : LeafCapacity := LeafCapacity.standard

/-- A roster with a tree over it. -/
structure Index where
  metric : Metric
  capacity : LeafCapacity
  roster : Roster
  tree? : Option Tree

namespace Index

/-- The index without clients. -/
def empty (metric : Metric) : Index := ⟨metric, LeafCapacity.ofNat 1, [], none⟩

/-- The tree over a roster, if it has clients. -/
def treeOf? (halving : Halving) (capacity : LeafCapacity) (roster : Roster) : Option Tree :=
  if h : roster.entries = [] then none else some (Tree.grow halving capacity 0 roster.entries h)

/-- The index of a roster, or why the roster is refused. -/
def buildBy? (halving : Halving) (config : IndexConfig) (roster : Roster) :
    Except RosterError Index :=
  match roster.check with
  | .error e => .error e
  | .ok () => .ok ⟨config.metric, config.capacity, roster, treeOf? halving config.capacity roster⟩

/-- The index of a roster, with halves cut from sorted entries. -/
def build? (config : IndexConfig) (roster : Roster) : Except RosterError Index :=
  buildBy? Halving.sorting config roster

/-- The number of clients. -/
def size (ix : Index) : Nat := ix.roster.length

/-- The index has no clients. -/
def isEmpty (ix : Index) : Bool := ix.roster.isEmpty

/-- The box around all clients. -/
def bounds? (ix : Index) : Option Region := ix.tree?.map Tree.box

/-- Depth and counts of the tree, all zero without one. -/
def shape (ix : Index) : Tree.Shape := (ix.tree?.map Tree.shape).getD ⟨0, 0, 0⟩

end Index

end FleetMatch
