import FleetMatch.Proofs.Distance.Euclidean

/-!
# Planar distances that are too large

Between finite places the planar distance is always a number, but not always a finite one: it is the root of
a sum of squares, and the squares overflow long before the distance itself would.  Where they do not, the
distance is at most `2 ^ 512`, though numbers go up to `2 ^ 1024`.

* `Euclidean.squares`: the sum of the squares, rounded at each step.
* `distance_number` — the distance between finite places is a number, and not a negative one.
* `distance_isFinite_iff` — it is finite exactly if the sum of the squares does not overflow.
* `squares_lt_of_near`, `squares_eq_of_far` — this does not happen up to `2 ^ 511` on both axes, and always
  happens from `2 ^ 512` on either axis.
-/

set_option autoImplicit false

namespace FleetMatch

namespace Scalar

variable {x : Float}

/-- The square of a difference, rounded at each step. -/
noncomputable def squareOf (x : ℝ) : ℝ := nearest (nearest x ^ 2)

theorem squareOf_nonneg (x : ℝ) : 0 ≤ squareOf x := nearest_nonneg (sq_nonneg _)

theorem squareOf_mono {x y : ℝ} (h : |x| ≤ |y|) : squareOf x ≤ squareOf y := by
  have differences : |nearest x| ≤ |nearest y| := by
    rw [abs_nearest, abs_nearest]
    exact nearest_mono h
  exact nearest_mono (sq_le_sq.2 differences)

theorem squareOf_two_pow {n : ℕ} (small : 2 * n ≤ 1024) : squareOf (2 ^ n) = 2 ^ (2 * n) := by
  rw [squareOf, nearest_two_pow (by omega), ← pow_mul, Nat.mul_comm, nearest_two_pow small]

theorem limit_le_squareOf {x : ℝ} (far : 2 ^ 512 ≤ |x|) : limit ≤ squareOf x := by
  have whole : |(2 : ℝ) ^ 512| = 2 ^ 512 := abs_of_nonneg (by positivity)
  have square := squareOf_mono (whole.le.trans far)
  rwa [squareOf_two_pow (by norm_num)] at square

theorem square_sub_gives {y : Float} (hx : x.isFinite = true) (hy : y.isFinite = true) :
    Gives ((x - y) * (x - y)) (nearest (value x - value y) ^ 2) := by
  have difference := sub_gives hx hy
  rw [← difference.value]
  exact square_gives difference.number

end Scalar

open Scalar

namespace Euclidean

variable {q p : Place}

/-- The sum of the squares of the differences of two places, rounded at each step.  It is `limit` if it is
too large. -/
noncomputable def squares (q p : Place) : ℝ :=
  nearest (squareOf (value p.x - value q.x) + squareOf (value p.y - value q.y))

theorem squares_nonneg (q p : Place) : 0 ≤ squares q p :=
  nearest_nonneg (add_nonneg (squareOf_nonneg _) (squareOf_nonneg _))

/-- The distance is the root of a number, whose value is the sum of the squares. -/
theorem distance_eq_sqrt (hq : q.isFinite = true) (hp : p.isFinite = true) :
    ∃ sum : Float, distance q p = sum.sqrt ∧ sum.isNaN = false ∧ value sum = squares q p := by
  simp only [Place.isFinite, Bool.and_eq_true] at hq hp
  have squareX := square_sub_gives hp.1 hq.1
  have squareY := square_sub_gives hp.2 hq.2
  have sum := add_gives squareX.number squareY.number (value_square_nonneg _) (value_square_nonneg _)
  refine ⟨_, rfl, sum.number, ?_⟩
  rw [sum.value, squareX.value, squareY.value, squares, squareOf, squareOf]

/-- What a distance is, for finite places: the root of the sum of the squares, or an infinity. -/
theorem distance_gives (hq : q.isFinite = true) (hp : p.isFinite = true) :
    Gives (distance q p) (if squares q p < limit then √(squares q p) else limit) := by
  obtain ⟨sum, root, number, same⟩ := distance_eq_sqrt hq hp
  have nonneg : 0 ≤ value sum := same ▸ squares_nonneg q p
  have finite := isFinite_iff_value number nonneg
  rw [root, ← same]
  split
  · rename_i small
    exact sqrt_gives (finite.2 small) nonneg
  · rename_i large
    exact sqrt_infinite number (Bool.eq_false_iff.2 fun h => large (finite.1 h)) nonneg

/-- **Distances between finite places are numbers**, and none is negative. -/
theorem distance_number (hq : q.isFinite = true) (hp : p.isFinite = true) :
    (distance q p).isNaN = false ∧ 0 ≤ value (distance q p) := by
  have gives := distance_gives hq hp
  refine ⟨gives.number, ?_⟩
  rw [gives.value]
  refine nearest_nonneg ?_
  split
  · exact Real.sqrt_nonneg _
  · exact limit_pos.le

theorem value_distance (hq : q.isFinite = true) (hp : p.isFinite = true) (small : squares q p < limit) :
    value (distance q p) = nearest √(squares q p) := by
  have gives := distance_gives hq hp
  rw [if_pos small] at gives
  exact gives.value

/-- A finite distance is at most `2 ^ 512`. -/
theorem value_distance_le (hq : q.isFinite = true) (hp : p.isFinite = true) (small : squares q p < limit) :
    value (distance q p) ≤ 2 ^ 512 := by
  have root : √(squares q p) ≤ 2 ^ 512 := by
    rw [Real.sqrt_le_left (by positivity), ← pow_mul]
    exact small.le
  rw [value_distance hq hp small, ← nearest_two_pow (by norm_num : 512 ≤ 1024)]
  exact nearest_mono root

/-- **The distance between finite places is finite exactly if the sum of the squares does not overflow.** -/
theorem distance_isFinite_iff (hq : q.isFinite = true) (hp : p.isFinite = true) :
    (distance q p).isFinite = true ↔ squares q p < limit := by
  obtain ⟨number, nonneg⟩ := distance_number hq hp
  rw [isFinite_iff_value number nonneg]
  constructor
  · intro small
    by_contra large
    have gives := distance_gives hq hp
    rw [if_neg large] at gives
    rw [gives.value, nearest_of_le le_rfl] at small
    exact lt_irrefl _ small
  · intro small
    refine (value_distance_le hq hp small).trans_lt ?_
    exact pow_lt_pow_right₀ (by norm_num) (by norm_num)

/-- The squares of places that are near on both axes do not overflow. -/
theorem squares_lt_of_near (nearX : |value p.x - value q.x| ≤ 2 ^ 511)
    (nearY : |value p.y - value q.y| ≤ 2 ^ 511) : squares q p < limit := by
  have whole : |(2 : ℝ) ^ 511| = 2 ^ 511 := abs_of_nonneg (by positivity)
  have x := squareOf_mono (nearX.trans whole.ge)
  have y := squareOf_mono (nearY.trans whole.ge)
  have sum : squareOf (value p.x - value q.x) + squareOf (value p.y - value q.y) ≤ 2 ^ 1023 :=
    calc squareOf (value p.x - value q.x) + squareOf (value p.y - value q.y)
      _ ≤ 2 ^ 1022 + 2 ^ 1022 := by
        rw [squareOf_two_pow (by norm_num)] at x y
        exact add_le_add x y
      _ = 2 ^ 1023 := by rw [← mul_two, ← pow_succ]
  calc squares q p
    _ ≤ nearest (2 ^ 1023) := nearest_mono sum
    _ = 2 ^ 1023 := nearest_two_pow (by norm_num)
    _ < limit := pow_lt_pow_right₀ (by norm_num) (by norm_num)

/-- The squares of places that are far apart on one of the axes overflow. -/
theorem squares_eq_of_far (far : 2 ^ 512 ≤ |value p.x - value q.x| ∨ 2 ^ 512 ≤ |value p.y - value q.y|) :
    squares q p = limit := by
  refine nearest_of_le ?_
  rcases far with far | far
  · exact (limit_le_squareOf far).trans (le_add_of_nonneg_right (squareOf_nonneg _))
  · exact (limit_le_squareOf far).trans (le_add_of_nonneg_left (squareOf_nonneg _))

end Euclidean

end FleetMatch
