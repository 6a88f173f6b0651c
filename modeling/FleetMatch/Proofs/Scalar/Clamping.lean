import FleetMatch.Proofs.Scalar.Operations
import Mathlib.Algebra.Order.Group.Pointwise.Interval

/-!
# Clamping on one axis

The number that clamping gives lies on the way from the clamped number to every number of the interval.
So it is the nearest number of the interval.  Rounding keeps the order of distances, which leaves it
nearest where distances are rounded.

* `clamp?_cases` — clamping gives an end of the interval or the number itself.
* `clamp?_isNearest` — clamping gives the nearest number of an interval.
* `sub_clamp_le` — no rounded difference to a number of the interval is smaller.
-/

set_option autoImplicit false

namespace FleetMatch.Scalar

variable {lo hi q x c : Float}

/-- Between finite numbers all numbers are finite. -/
theorem isFinite_of_between (flo : lo.isFinite = true) (fhi : hi.isFinite = true) (above : lo ≤ x)
    (below : x ≤ hi) : x.isFinite = true := by
  have number := ((le_iff lo x).1 above).2.1
  rw [le_iff_value (isNaN_of_isFinite flo) number] at above
  rw [le_iff_value number (isNaN_of_isFinite fhi)] at below
  cases fx : x.isFinite with
  | true => rfl
  | false =>
    have top := abs_value_of_infinite number fx
    have least := abs_lt.1 (abs_value_lt_limit flo)
    have most := abs_lt.1 (abs_value_lt_limit fhi)
    have small : |value x| < limit := abs_lt.2 ⟨by linarith, by linarith⟩
    exact absurd top small.ne

/-- A number of an interval stays as it is. -/
theorem clamp?_of_between (above : lo ≤ x) (below : x ≤ hi) : Comparable.clamp? x lo hi = some x := by
  have order : lo ≤ hi := le_trans above below
  have notBelow : ¬ x < lo := fun less => not_le_of_lt less above
  have notAbove : ¬ hi < x := fun less => not_le_of_lt less below
  simp [Comparable.clamp?, Comparable.le, Comparable.lt, order, notBelow, notAbove]

theorem le_of_clamp? (clamp : Comparable.clamp? q lo hi = some c) : lo ≤ hi := by
  simp only [Comparable.clamp?, Comparable.le, decide_eq_true_eq, Option.ite_none_right_eq_some] at clamp
  exact clamp.1

/-- Clamping a number gives the end of the interval before which it stands, or the number itself. -/
theorem clamp?_cases (number : q.isNaN = false) (clamp : Comparable.clamp? q lo hi = some c) :
    (c = lo ∧ q ≤ lo) ∨ (c = hi ∧ hi ≤ q) ∨ (c = q ∧ lo ≤ q ∧ q ≤ hi) := by
  simp only [Comparable.clamp?, Comparable.le, Comparable.lt, decide_eq_true_eq,
    Option.ite_none_right_eq_some, Option.some.injEq] at clamp
  obtain ⟨order, rfl⟩ := clamp
  obtain ⟨nlo, nhi, -⟩ := (le_iff lo hi).1 order
  by_cases left : q < lo
  · rw [if_pos left]
    exact .inl ⟨rfl, le_of_lt left⟩
  · rw [if_neg left]
    by_cases right : hi < q
    · rw [if_pos right]
      exact .inr (.inl ⟨rfl, le_of_lt right⟩)
    · rw [if_neg right]
      exact .inr (.inr ⟨rfl, le_of_not_lt nlo number left, le_of_not_lt number nhi right⟩)

theorem clamp?_between (number : q.isNaN = false) (clamp : Comparable.clamp? q lo hi = some c) :
    lo ≤ c ∧ c ≤ hi := by
  have order := le_of_clamp? clamp
  obtain ⟨nlo, nhi, -⟩ := (le_iff lo hi).1 order
  rcases clamp?_cases number clamp with ⟨rfl, -⟩ | ⟨rfl, -⟩ | ⟨rfl, inside⟩
  · exact ⟨le_refl nlo, order⟩
  · exact ⟨order, le_refl nhi⟩
  · exact inside

/-- The number that clamping gives lies on the way to every number of the interval. -/
theorem value_clamp_mem (number : q.isNaN = false) (clamp : Comparable.clamp? q lo hi = some c)
    (above : lo ≤ x) (below : x ≤ hi) : value c ∈ Set.uIcc (value q) (value x) := by
  obtain ⟨nlo, nx, -⟩ := (le_iff lo x).1 above
  have nhi := ((le_iff x hi).1 below).2.1
  rcases clamp?_cases number clamp with ⟨rfl, left⟩ | ⟨rfl, right⟩ | ⟨rfl, -⟩
  · exact Set.mem_uIcc_of_le ((le_iff_value number nlo).1 left) ((le_iff_value nlo nx).1 above)
  · exact Set.mem_uIcc_of_ge ((le_iff_value nx nhi).1 below) ((le_iff_value nhi number).1 right)
  · exact Set.left_mem_uIcc

/-- Of all numbers between `lo` and `hi`, `c` is nearest to `q`, and it is `q` itself if that is one of
them. -/
structure IsNearest (lo hi q c : Float) : Prop where
  inside : lo ≤ c ∧ c ≤ hi
  fixed_iff : (c == q) = true ↔ lo ≤ q ∧ q ≤ hi
  nearest : ∀ x, lo ≤ x → x ≤ hi → |value c - value q| ≤ |value x - value q|

/-- **Clamping gives the nearest number of an interval.** -/
theorem clamp?_isNearest (number : q.isNaN = false) (clamp : Comparable.clamp? q lo hi = some c) :
    IsNearest lo hi q c := by
  have inside := clamp?_between number clamp
  refine ⟨inside, ⟨fun fixed => ?_, fun ⟨above, below⟩ => ?_⟩, fun x above below => ?_⟩
  · obtain ⟨atMost, atLeast⟩ := beq_iff_le.1 fixed
    exact ⟨le_trans inside.1 atMost, le_trans atLeast inside.2⟩
  · have same := clamp.symm.trans (clamp?_of_between above below)
    rw [Option.some.inj same]
    exact beq_refl number
  · exact Set.abs_sub_left_of_mem_uIcc (value_clamp_mem number clamp above below)

/-- **On one axis, no number of an interval is nearer than the number that clamping gives.** -/
theorem sub_clamp_le (flo : lo.isFinite = true) (fhi : hi.isFinite = true) (above : lo ≤ x)
    (below : x ≤ hi) (clamp : Comparable.clamp? q lo hi = some c) (number : (x - q).isNaN = false) :
    (c - q).isNaN = false ∧ |value (c - q)| ≤ |value (x - q)| := by
  have hq : q.isNaN = false := by
    cases hq : q.isNaN with
    | false => rfl
    | true => exact absurd (number.symm.trans (isNaN_sub_right hq)) Bool.false_ne_true
  have near := clamp?_isNearest hq clamp
  have fx := isFinite_of_between flo fhi above below
  have fc := isFinite_of_between flo fhi near.inside.1 near.inside.2
  -- Rounding keeps the order of distances.  From an infinite query all differences are the same
  -- infinity.
  cases fq : q.isFinite with
  | true =>
    have part := sub_gives fc fq
    refine ⟨part.number, ?_⟩
    rw [part.value, (sub_gives fx fq).value, abs_nearest, abs_nearest]
    exact nearest_mono (near.nearest x above below)
  | false =>
    obtain ⟨numberC, farC⟩ := sub_infinite fc hq fq
    refine ⟨numberC, ?_⟩
    rw [farC, (sub_infinite fx hq fq).2]

end FleetMatch.Scalar
