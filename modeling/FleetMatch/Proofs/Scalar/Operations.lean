import FleetMatch.Proofs.Scalar.Value

/-!
# Operations on binary64 numbers

Every operation gives the binary64 number nearest to the real result, so it keeps the order of ranking
where the real operation keeps the order.

* `Gives`: an operation gives what is nearest to a real number.
* `sub_gives`, `square_gives`, `add_gives`, `sqrt_gives` — differences of finite numbers, and squares,
  sums and roots also of infinities.
* `rankLE_square`, `rankLE_add`, `rankLE_sqrt` — on magnitudes these operations keep the order of
  ranking, whatever overflows and whatever is not a number.
-/

set_option autoImplicit false

namespace FleetMatch.Scalar

open Float.Model Float.Model.UnpackedFloat

/-! ## Packing -/

theorem overflow_signed (s : Sign) {x : ℝ} (h : limit ≤ x) : overflow (signed s x) = signed s limit := by
  cases s with
  | negative => exact overflow_of_le_neg (neg_le_neg h)
  | positive => exact overflow_of_le h

/-- Packing turns what is too large into the infinity that stands for it. -/
theorem realValue_overflowed {u : UnpackedFloat} (hu : Canonical u) :
    realValue (overflowed u) = overflow (realValue u) := by
  have zero : overflow 0 = 0 := overflow_of_abs_le (by rw [abs_zero]; exact limit_pos.le)
  rcases u with s | _ | s | ⟨s, m, e, hm⟩
  · exact (overflow_signed s le_rfl).symm
  · exact zero.symm
  · exact zero.symm
  · by_cases large : 972 ≤ e
    · have long : 2 ^ 52 ≤ m := hu.2.2.resolve_right (by omega)
      have above : limit ≤ m * 2 ^ e :=
        calc limit
          _ = 2 ^ (1024 : ℤ) := rfl
          _ ≤ 2 ^ (e + 52) := zpow_le_zpow_right₀ (by norm_num) (by omega)
          _ ≤ m * 2 ^ e := le_magnitude long
      rw [overflowed_finite, if_pos large]
      exact (overflow_signed s above).symm
    · have inRange : overflowed (.finite s m e hm) = .finite s m e hm := if_neg large
      have small := (Fits.mk hu inRange).abs_lt_limit rfl
      rw [inRange, overflow_of_abs_le small.le]

theorem isNaN_overflowed (u : UnpackedFloat) : (overflowed u).isNaN = u.isNaN := by
  rcases u with _ | _ | _ | ⟨s, m, e, hm⟩ <;> try rfl
  by_cases large : 972 ≤ e
  · rw [overflowed_finite, if_pos large]
    rfl
  · rw [overflowed_finite, if_neg large]

/-- What an operation makes of an unpacked number. -/
def packed (u : UnpackedFloat) : Float := .ofModel (.pack u)

variable {u : UnpackedFloat}

theorem value_packed (hu : Canonical u) : value (packed u) = overflow (realValue u) := by
  rw [← realValue_overflowed hu, ← unpack_pack hu]
  rfl

theorem isNaN_packed (hu : Canonical u) : (packed u).isNaN = u.isNaN := by
  rw [← isNaN_overflowed, ← unpack_pack hu]
  rfl

/-- An operation gives the binary64 number that is nearest to a real number. -/
structure Gives (z : Float) (x : ℝ) : Prop where
  number : z.isNaN = false
  value : value z = nearest x

theorem Rounds.gives {x : ℝ} (h : Rounds u x) : Gives (packed u) x := by
  constructor
  · have finite := h.finite
    rw [isNaN_packed h.canonical]
    rcases u with _ | _ | _ | _ <;> first | rfl | cases finite
  · rw [value_packed h.canonical, h.value]
    rfl

theorem gives_infinity {x : ℝ} (large : limit ≤ x) : Gives (packed (.infinity .positive)) x := by
  constructor
  · exact isNaN_packed (u := .infinity .positive) trivial
  · rw [value_packed (u := .infinity .positive) trivial, nearest_of_le large]
    exact overflow_of_le le_rfl

/-! ## Single operations -/

variable {x y : Float}

theorem unpack_of_isNaN (hx : x.isNaN = true) : x.toModel.unpack = .notANumber := by
  have none : x.toModel.unpack.isNaN = true := hx
  generalize x.toModel.unpack = u at none
  rcases u with _ | _ | _ | _ <;> first | rfl | cases none

theorem value_of_isNaN (hx : x.isNaN = true) : value x = 0 := by
  rw [value, unpack_of_isNaN hx]
  rfl

theorem unpack_of_infinite (hx : x.isNaN = false) (fx : x.isFinite = false) :
    ∃ s, x.toModel.unpack = .infinity s :=
  eq_infinity_of_not_isFinite hx fx

theorem abs_value_of_infinite (hx : x.isNaN = false) (fx : x.isFinite = false) : |value x| = limit := by
  obtain ⟨s, infinite⟩ := unpack_of_infinite hx fx
  rw [value, infinite]
  show |signed s limit| = limit
  rw [abs_signed, abs_of_pos limit_pos]

theorem abs_value_lt_limit (fx : x.isFinite = true) : |value x| < limit := (fits_unpack x).abs_lt_limit fx

theorem value_le_limit (x : Float) : value x ≤ limit := by
  cases hx : x.isNaN with
  | true =>
    rw [value_of_isNaN hx]
    exact limit_pos.le
  | false =>
    cases fx : x.isFinite with
    | true => exact (le_abs_self _).trans (abs_value_lt_limit fx).le
    | false => exact (le_abs_self _).trans (abs_value_of_infinite hx fx).le

theorem isNaN_sub_right (hy : y.isNaN = true) : (x - y).isNaN = true := by
  show (packed (UnpackedFloat.sub .binary64 x.toModel.unpack y.toModel.unpack)).isNaN = true
  rw [unpack_of_isNaN hy]
  rcases x.toModel.unpack with _ | _ | _ | _ <;> exact isNaN_packed (u := .notANumber) trivial

/-- **Differences of finite numbers.** -/
theorem sub_gives (hx : x.isFinite = true) (hy : y.isFinite = true) :
    Gives (x - y) (value x - value y) :=
  (sub_rounds (fits_unpack x).canonical (fits_unpack y).canonical hx hy).gives

/-- A finite number taken from itself leaves the zero without a sign. -/
theorem sub_self_of_isFinite (hx : x.isFinite = true) : x - x = 0.0 := by
  have finite : x.toModel.unpack.isFinite = true := hx
  have difference :
      UnpackedFloat.sub .binary64 x.toModel.unpack x.toModel.unpack = .zero .positive := by
    generalize x.toModel.unpack = u at finite
    rcases u with _ | _ | s | ⟨s, m, e, hm⟩
    · cases finite
    · cases finite
    · cases s <;> rfl
    · show UnpackedFloat.normalize .binary64 (_ - _) _ .positive = .zero .positive
      rw [Int.sub_self]
      rfl
  have packs : x - x = packed (.zero .positive) := congrArg packed difference
  rw [packs]
  rfl

/-- From an infinity, all finite numbers are equally far. -/
theorem sub_infinite (hx : x.isFinite = true) (hy : y.isNaN = false) (fy : y.isFinite = false) :
    (x - y).isNaN = false ∧ |value (x - y)| = limit := by
  have finite : x.toModel.unpack.isFinite = true := hx
  obtain ⟨s, infinite⟩ := unpack_of_infinite hy fy
  have difference : UnpackedFloat.sub .binary64 x.toModel.unpack y.toModel.unpack = .infinity (-s) := by
    rw [infinite]
    generalize x.toModel.unpack = u at finite
    rcases u with _ | _ | _ | _ <;> first | rfl | cases finite
  have packs : x - y = packed (.infinity (-s)) := congrArg packed difference
  rw [packs]
  constructor
  · exact isNaN_packed (u := .infinity (-s)) trivial
  · rw [value_packed (u := .infinity (-s)) trivial]
    show |overflow (signed (-s) limit)| = limit
    rw [overflow_signed _ le_rfl, abs_signed, abs_of_pos limit_pos]

theorem one_le_limit : 1 ≤ limit := one_le_pow₀ (by norm_num)

theorem limit_le_square (h : |value x| = limit) : limit ≤ value x ^ 2 := by
  rw [← sq_abs, h, sq]
  exact le_mul_of_one_le_left limit_pos.le one_le_limit

/-- **Squares.** -/
theorem square_gives (hx : x.isNaN = false) : Gives (x * x) (value x ^ 2) := by
  cases fx : x.isFinite with
  | true =>
    rw [sq]
    exact (mul_rounds (fits_unpack x).canonical (fits_unpack x).canonical fx fx).gives
  | false =>
    have large := limit_le_square (abs_value_of_infinite hx fx)
    obtain ⟨s, infinite⟩ := unpack_of_infinite hx fx
    have square : UnpackedFloat.mul .binary64 x.toModel.unpack x.toModel.unpack = .infinity .positive := by
      rw [infinite]
      cases s <;> rfl
    have packs : x * x = packed (.infinity .positive) := congrArg packed square
    rw [packs]
    exact gives_infinity large

theorem isNaN_square (hx : x.isNaN = true) : (x * x).isNaN = true := by
  show (packed (UnpackedFloat.mul .binary64 x.toModel.unpack x.toModel.unpack)).isNaN = true
  rw [unpack_of_isNaN hx]
  exact isNaN_packed (u := .notANumber) trivial

theorem unpack_of_infinite_nonneg (hx : x.isNaN = false) (fx : x.isFinite = false)
    (nonneg : 0 ≤ value x) : x.toModel.unpack = .infinity .positive := by
  obtain ⟨s, infinite⟩ := unpack_of_infinite hx fx
  cases s with
  | negative =>
    have below : value x = -limit := by rw [value, infinite]; rfl
    have pos := limit_pos
    linarith
  | positive => exact infinite

theorem value_of_infinite_nonneg (hx : x.isNaN = false) (fx : x.isFinite = false)
    (nonneg : 0 ≤ value x) : value x = limit := by
  rw [← abs_of_nonneg nonneg, abs_value_of_infinite hx fx]

/-- The finite numbers are those whose value is not too large. -/
theorem isFinite_iff_value (number : x.isNaN = false) (nonneg : 0 ≤ value x) :
    x.isFinite = true ↔ value x < limit := by
  constructor
  · intro finite
    exact (le_abs_self _).trans_lt (abs_value_lt_limit finite)
  · intro small
    cases finite : x.isFinite with
    | true => rfl
    | false => exact absurd (value_of_infinite_nonneg number finite nonneg) small.ne

/-- An infinity takes all finite numbers and itself in. -/
theorem add_infinity (h : u.isFinite = true ∨ u = .infinity .positive) :
    UnpackedFloat.add .binary64 (.infinity .positive) u = .infinity .positive ∧
      UnpackedFloat.add .binary64 u (.infinity .positive) = .infinity .positive := by
  rcases h with finite | rfl
  · rcases u with _ | _ | _ | _ <;> first | exact ⟨rfl, rfl⟩ | cases finite
  · exact ⟨rfl, rfl⟩

theorem unpack_of_nonneg (hx : x.isNaN = false) (nx : 0 ≤ value x) :
    x.toModel.unpack.isFinite = true ∨ x.toModel.unpack = .infinity .positive := by
  cases fx : x.isFinite with
  | true => exact .inl fx
  | false => exact .inr (unpack_of_infinite_nonneg hx fx nx)

/-- **Sums of magnitudes.** -/
theorem add_gives (hx : x.isNaN = false) (hy : y.isNaN = false) (nx : 0 ≤ value x)
    (ny : 0 ≤ value y) : Gives (x + y) (value x + value y) := by
  by_cases finite : x.isFinite = true ∧ y.isFinite = true
  · exact (add_rounds (fits_unpack x).canonical (fits_unpack y).canonical finite.1 finite.2).gives
  · have infinite : UnpackedFloat.add .binary64 x.toModel.unpack y.toModel.unpack =
        .infinity .positive ∧ limit ≤ value x + value y := by
      rw [not_and_or, Bool.not_eq_true, Bool.not_eq_true] at finite
      rcases finite with fx | fy
      · rw [unpack_of_infinite_nonneg hx fx nx, value_of_infinite_nonneg hx fx nx]
        exact ⟨(add_infinity (unpack_of_nonneg hy ny)).1, le_add_of_nonneg_right ny⟩
      · rw [unpack_of_infinite_nonneg hy fy ny, value_of_infinite_nonneg hy fy ny]
        exact ⟨(add_infinity (unpack_of_nonneg hx nx)).2, le_add_of_nonneg_left nx⟩
    have packs : x + y = packed (.infinity .positive) := congrArg packed infinite.1
    rw [packs]
    exact gives_infinity infinite.2

theorem isNaN_add (h : x.isNaN = true ∨ y.isNaN = true) : (x + y).isNaN = true := by
  show (packed (UnpackedFloat.add .binary64 x.toModel.unpack y.toModel.unpack)).isNaN = true
  rcases h with hx | hy
  · rw [unpack_of_isNaN hx]
    exact isNaN_packed (u := .notANumber) trivial
  · rw [unpack_of_isNaN hy]
    rcases x.toModel.unpack with _ | _ | _ | _ <;> exact isNaN_packed (u := .notANumber) trivial

/-- **Roots of finite magnitudes.** -/
theorem sqrt_gives (fx : x.isFinite = true) (nx : 0 ≤ value x) : Gives x.sqrt √(value x) :=
  (sqrt_rounds (fits_unpack x).canonical fx nx).gives

theorem sqrt_infinite (hx : x.isNaN = false) (fx : x.isFinite = false) (nx : 0 ≤ value x) :
    Gives x.sqrt limit := by
  have root : UnpackedFloat.sqrt .binary64 x.toModel.unpack = .infinity .positive := by
    rw [unpack_of_infinite_nonneg hx fx nx]
    rfl
  have packs : x.sqrt = packed (.infinity .positive) := congrArg packed root
  rw [packs]
  exact gives_infinity le_rfl

theorem isNaN_sqrt_of_nonneg (hx : x.isNaN = false) (nx : 0 ≤ value x) : x.sqrt.isNaN = false := by
  cases fx : x.isFinite with
  | true => exact (sqrt_gives fx nx).number
  | false => exact (sqrt_infinite hx fx nx).number

theorem isNaN_sqrt (hx : x.isNaN = true) : x.sqrt.isNaN = true := by
  show (packed (UnpackedFloat.sqrt .binary64 x.toModel.unpack)).isNaN = true
  rw [unpack_of_isNaN hx]
  exact isNaN_packed (u := .notANumber) trivial

/-! ## Order -/

variable {x' y' : Float}

/-- **Squares of what is farther from zero rank later.** -/
theorem rankLE_square (h : y.isNaN = false → x.isNaN = false ∧ |value x| ≤ |value y|) :
    rankLE (x * x) (y * y) = true := by
  cases hy : y.isNaN with
  | true => rw [rankLE, isNaN_square hy, Bool.true_or]
  | false =>
    obtain ⟨hx, less⟩ := h hy
    have left := square_gives hx
    have right := square_gives hy
    rw [rankLE_iff_value left.number right.number, left.value, right.value]
    exact nearest_mono (sq_le_sq.2 less)

theorem value_square_nonneg (x : Float) : 0 ≤ value (x * x) := by
  cases hx : x.isNaN with
  | true => rw [value_of_isNaN (isNaN_square hx)]
  | false =>
    rw [(square_gives hx).value]
    exact nearest_nonneg (sq_nonneg _)

theorem value_add_nonneg (nx : 0 ≤ value x) (ny : 0 ≤ value y) : 0 ≤ value (x + y) := by
  by_cases none : x.isNaN = true ∨ y.isNaN = true
  · rw [value_of_isNaN (isNaN_add none)]
  · rw [not_or, Bool.not_eq_true, Bool.not_eq_true] at none
    rw [(add_gives none.1 none.2 nx ny).value]
    exact nearest_nonneg (add_nonneg nx ny)

/-- What ranks at or before a number is a number of at most its value. -/
theorem value_le_of_rankLE (h : rankLE x y = true) (hy : y.isNaN = false) :
    x.isNaN = false ∧ value x ≤ value y := by
  have below := h
  rw [rankLE, hy, Bool.false_or, decide_eq_true_eq] at below
  have hx := ((le_iff x y).1 below).1
  exact ⟨hx, (rankLE_iff_value hx hy).1 h⟩

/-- **Sums of magnitudes keep the order of ranking.** -/
theorem rankLE_add (nx : 0 ≤ value x) (ny : 0 ≤ value y) (hx : rankLE x x' = true)
    (hy : rankLE y y' = true) : rankLE (x + y) (x' + y') = true := by
  by_cases none : x'.isNaN = true ∨ y'.isNaN = true
  · rw [rankLE, isNaN_add none, Bool.true_or]
  · rw [not_or, Bool.not_eq_true, Bool.not_eq_true] at none
    obtain ⟨numberX, lessX⟩ := value_le_of_rankLE hx none.1
    obtain ⟨numberY, lessY⟩ := value_le_of_rankLE hy none.2
    have left := add_gives numberX numberY nx ny
    have right := add_gives none.1 none.2 (nx.trans lessX) (ny.trans lessY)
    rw [rankLE_iff_value left.number right.number, left.value, right.value]
    exact nearest_mono (add_le_add lessX lessY)

/-- **Roots of magnitudes keep the order of ranking.** -/
theorem rankLE_sqrt (nx : 0 ≤ value x) (h : rankLE x y = true) : rankLE x.sqrt y.sqrt = true := by
  cases hy : y.isNaN with
  | true => rw [rankLE, isNaN_sqrt hy, Bool.true_or]
  | false =>
    obtain ⟨hx, less⟩ := value_le_of_rankLE h hy
    have ny := nx.trans less
    rw [rankLE_iff_value (isNaN_sqrt_of_nonneg hx nx) (isNaN_sqrt_of_nonneg hy ny)]
    cases fy : y.isFinite with
    | true =>
      have fx : x.isFinite = true := by
        cases fx : x.isFinite with
        | true => rfl
        | false =>
          have top := value_of_infinite_nonneg hx fx nx
          have below := (le_abs_self _).trans_lt (abs_value_lt_limit fy)
          linarith
      rw [(sqrt_gives fx nx).value, (sqrt_gives fy ny).value]
      exact nearest_mono (Real.sqrt_le_sqrt less)
    | false =>
      rw [(sqrt_infinite hy fy ny).value, nearest_of_le le_rfl]
      exact value_le_limit x.sqrt

end FleetMatch.Scalar
