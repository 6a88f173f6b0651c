import FleetMatch.Index.Tree
import FleetMatch.Scalar.Order

/-!
# Splitting entries into halves

A list of entries is split by the median of one axis: longitudes at even depths, latitudes at odd
ones.  Entries that agree on the axis are told apart by their ordinals, so the two halves are
determined as sets.

* `Entry.along`: the coordinate of a split; `Entry.splitsBefore`: its order.
* `Halving`: any way to split that puts the smaller half of the entries on the left.  Nothing is
  said about the order inside a half.
* `Halving.sorting`: the halving that sorts and cuts.
-/

namespace FleetMatch

namespace Entry

/-- The coordinate by which entries are split at a depth. -/
def along (depth : Nat) (e : Entry) : Float := if depth % 2 = 0 then e.place.x else e.place.y

/-- The axes take turns from the root on, the longitude first. -/
theorem along_turns (n : Nat) (e : Entry) :
    e.along (2 * n) = e.place.x ∧ e.along (2 * n + 1) = e.place.y :=
  ⟨if_pos (by omega), if_neg (by omega)⟩

/-- The coordinate by which entries are split at a depth, as a place in the order of all binary64
numbers. -/
def axisKey (depth : Nat) (e : Entry) : UInt64 := Scalar.totalKey (e.along depth)

/-- The first entry belongs at or before the second in a split at a depth. -/
def splitsBefore (depth : Nat) (a b : Entry) : Bool :=
  a.axisKey depth < b.axisKey depth ||
    (a.axisKey depth == b.axisKey depth && a.ordinal ≤ b.ordinal)

theorem splitsBefore_total (depth : Nat) (a b : Entry) :
    (splitsBefore depth a b || splitsBefore depth b a) = true := by
  simp only [splitsBefore, Bool.or_eq_true, Bool.and_eq_true, decide_eq_true_eq, beq_iff_eq,
    UInt64.lt_iff_toNat_lt, ← UInt64.toNat_inj]
  omega

theorem splitsBefore_trans (depth : Nat) (a b c : Entry) (hab : splitsBefore depth a b = true)
    (hbc : splitsBefore depth b c = true) : splitsBefore depth a c = true := by
  simp only [splitsBefore, Bool.or_eq_true, Bool.and_eq_true, decide_eq_true_eq, beq_iff_eq,
    UInt64.lt_iff_toNat_lt, ← UInt64.toNat_inj] at *
  omega

end Entry

/-- A way to split entries into a smaller left half and a right half. -/
structure Halving where
  /-- The two halves at a depth. -/
  split : Nat → List Entry → List Entry × List Entry
  /-- Every entry goes to one half. -/
  perm : ∀ depth xs, ((split depth xs).1 ++ (split depth xs).2).Perm xs
  /-- The left half is not the longer one. -/
  length_left : ∀ depth xs, (split depth xs).1.length = xs.length / 2
  /-- The left half stands before the right one. -/
  left_before_right : ∀ depth xs, ∀ a ∈ (split depth xs).1, ∀ b ∈ (split depth xs).2,
    a.splitsBefore depth b = true

namespace Halving

theorem length_right (h : Halving) (depth : Nat) (xs : List Entry) :
    (h.split depth xs).2.length = xs.length - xs.length / 2 := by
  have := (h.perm depth xs).length_eq
  have := h.length_left depth xs
  simp only [List.length_append] at *
  omega

/-- Sorts the entries and cuts them in the middle. -/
def sorting : Halving where
  split depth xs :=
    let ordered := xs.mergeSort (Entry.splitsBefore depth)
    (ordered.take (xs.length / 2), ordered.drop (xs.length / 2))
  perm depth xs := by
    simp only [List.take_append_drop]
    exact List.mergeSort_perm xs _
  length_left depth xs := by
    simp only [List.length_take, List.length_mergeSort]
    omega
  left_before_right depth xs a ha b hb := by
    have ordered := List.pairwise_mergeSort
      (Entry.splitsBefore_trans depth) (Entry.splitsBefore_total depth) xs
    rw [← List.take_append_drop (xs.length / 2) (xs.mergeSort _)] at ordered
    exact (List.pairwise_append.1 ordered).2.2 a ha b hb

end Halving

end FleetMatch
