import Mathlib.Algebra.Order.Archimedean.Real.Basic
import Mathlib.Algebra.Order.Floor.Ring
import Mathlib.Data.Int.Log
import Mathlib.Tactic.Linarith
import Mathlib.Tactic.Positivity

/-!
# Rounding real numbers to binary64

What a binary64 operation computes is a real number, and what it gives is the nearest binary64 number
to it.  Here is this rounding, on real numbers alone.  The two infinities stand for `2 ^ 1024` and its
opposite: these are the first numbers that are too large.

* `halfEven`: the nearest integer, an even one for halves.
* `ulpExponent`, `ulp`: how far numbers of a magnitude are apart.
* `roundMagnitude`, `rounded`, `nearest`: rounding of magnitudes, of numbers, and with overflow.
* `halfEven_mono`, `roundMagnitude_mono`, `rounded_mono`, `nearest_mono` — rounding keeps the order.
* `roundMagnitude_of_grid`, `nearest_two_pow` — numbers with at most 53 binary digits stay as they are, and so
  do powers of two.
-/

set_option autoImplicit false

namespace FleetMatch.Scalar

/-! ## Integers -/

/-- The nearest integer; of two that are equally near, the even one. -/
noncomputable def halfEven (x : ℝ) : ℤ :=
  if Int.fract x < 1 / 2 then ⌊x⌋ else if 1 / 2 < Int.fract x then ⌊x⌋ + 1 else ⌊x⌋ + ⌊x⌋ % 2

theorem floor_le_halfEven (x : ℝ) : ⌊x⌋ ≤ halfEven x := by
  have := Int.emod_nonneg ⌊x⌋ (by decide : (2 : ℤ) ≠ 0)
  unfold halfEven
  split
  · omega
  · split <;> omega

theorem halfEven_le (x : ℝ) : halfEven x ≤ ⌊x⌋ + 1 := by
  have := Int.emod_lt_of_pos ⌊x⌋ (by decide : (0 : ℤ) < 2)
  unfold halfEven
  split
  · omega
  · split <;> omega

theorem halfEven_intCast (n : ℤ) : halfEven n = n := by
  have whole : Int.fract (n : ℝ) < 1 / 2 := by
    rw [Int.fract_intCast]
    norm_num
  rw [halfEven, if_pos whole, Int.floor_intCast]

/-- **Rounding to integers keeps the order.** -/
theorem halfEven_mono {x y : ℝ} (h : x ≤ y) : halfEven x ≤ halfEven y := by
  have floors : ⌊x⌋ ≤ ⌊y⌋ := Int.floor_le_floor h
  rcases floors.lt_or_eq with apart | same
  · have := halfEven_le x
    have := floor_le_halfEven y
    omega
  · -- With one floor for both, the order is that of the fractional parts.
    have fracts : Int.fract x ≤ Int.fract y := by
      unfold Int.fract
      rw [same]
      linarith
    have small := Int.emod_lt_of_pos ⌊y⌋ (by decide : (0 : ℤ) < 2)
    have nonneg := Int.emod_nonneg ⌊y⌋ (by decide : (2 : ℤ) ≠ 0)
    unfold halfEven
    rw [same]
    split_ifs <;> first | omega | linarith

/-! ## Magnitudes -/

/-- The magnitude of a mantissa with an exponent. -/
noncomputable def magnitude (m : ℕ) (e : ℤ) : ℝ := m * 2 ^ e

/-- The exponent of the distance between two neighbours of a magnitude. -/
noncomputable def ulpExponent (x : ℝ) : ℤ := max (Int.log 2 x - 52) (-1074)

/-- The distance between two neighbours of a magnitude. -/
noncomputable def ulp (x : ℝ) : ℝ := 2 ^ ulpExponent x

theorem ulp_pos (x : ℝ) : 0 < ulp x := zpow_pos (by norm_num) _

theorem ulpExponent_mono {x y : ℝ} (hx : 0 < x) (h : x ≤ y) : ulpExponent x ≤ ulpExponent y := by
  have := Int.log_mono_right (b := 2) hx h
  unfold ulpExponent
  omega

/-- Below the least power of two all numbers have the least exponent. -/
theorem ulpExponent_of_small {x : ℝ} (pos : 0 < x) (small : x < 2 ^ (-1074 : ℤ)) : ulpExponent x = -1074 := by
  have below : x < ((2 : ℕ) : ℝ) ^ (-1074 : ℤ) := by exact_mod_cast small
  have := (Int.lt_zpow_iff_log_lt (by decide) pos).1 below
  unfold ulpExponent
  omega

/-- A magnitude rounded to the nearest binary64 number, were there no largest one. -/
noncomputable def roundMagnitude (x : ℝ) : ℝ := halfEven (x / ulp x) * ulp x

theorem roundMagnitude_zero : roundMagnitude 0 = 0 := by
  have : halfEven 0 = 0 := by exact_mod_cast halfEven_intCast 0
  simp [roundMagnitude, this]

theorem roundMagnitude_nonneg {x : ℝ} (hx : 0 ≤ x) : 0 ≤ roundMagnitude x := by
  have floor : 0 ≤ ⌊x / ulp x⌋ := Int.floor_nonneg.2 (div_nonneg hx (ulp_pos x).le)
  have whole : (0 : ℝ) ≤ halfEven (x / ulp x) := by
    exact_mod_cast floor.trans (floor_le_halfEven _)
  exact mul_nonneg whole (ulp_pos x).le

/-- Rounding does not lift a number above the next power of two. -/
theorem roundMagnitude_le (x : ℝ) : roundMagnitude x ≤ 2 ^ (ulpExponent x + 53) := by
  have below : x / ulp x < 2 ^ (53 : ℤ) := by
    rw [div_lt_iff₀ (ulp_pos x), ulp, ← zpow_add₀ (by norm_num)]
    have := Int.lt_zpow_succ_log_self (b := 2) (by decide) x
    refine this.trans_le (zpow_le_zpow_right₀ (by norm_num) ?_)
    unfold ulpExponent
    omega
  have floor : ⌊x / ulp x⌋ < 2 ^ 53 := by
    rw [Int.floor_lt]
    exact_mod_cast below
  have whole : (halfEven (x / ulp x) : ℝ) ≤ 2 ^ 53 := by
    have := halfEven_le (x / ulp x)
    exact_mod_cast (by omega : halfEven (x / ulp x) ≤ 2 ^ 53)
  calc roundMagnitude x
    _ ≤ 2 ^ 53 * ulp x := mul_le_mul_of_nonneg_right whole (ulp_pos x).le
    _ = 2 ^ (ulpExponent x + 53) := by
      rw [ulp, add_comm, zpow_add₀ (by norm_num)]
      norm_num

/-- Above the least exponent, rounding does not sink a number below the last power of two. -/
theorem le_roundMagnitude {x : ℝ} (hx : 0 < x) (normal : -1074 < ulpExponent x) :
    2 ^ (ulpExponent x + 52) ≤ roundMagnitude x := by
  have exponent : ulpExponent x = Int.log 2 x - 52 := by
    unfold ulpExponent at *
    omega
  have above : 2 ^ (52 : ℤ) ≤ x / ulp x := by
    rw [le_div_iff₀ (ulp_pos x), ulp, ← zpow_add₀ (by norm_num), exponent]
    have := Int.zpow_log_le_self (b := 2) (by decide) hx
    ring_nf
    exact_mod_cast this
  have floor : 2 ^ 52 ≤ ⌊x / ulp x⌋ := by
    rw [Int.le_floor]
    exact_mod_cast above
  have whole : (2 : ℝ) ^ 52 ≤ halfEven (x / ulp x) := by
    exact_mod_cast floor.trans (floor_le_halfEven _)
  calc (2 : ℝ) ^ (ulpExponent x + 52)
    _ = 2 ^ 52 * ulp x := by
      rw [ulp, add_comm, zpow_add₀ (by norm_num)]
      norm_num
    _ ≤ roundMagnitude x := mul_le_mul_of_nonneg_right whole (ulp_pos x).le

/-- **Rounding magnitudes keeps the order.** -/
theorem roundMagnitude_mono {x y : ℝ} (hx : 0 ≤ x) (h : x ≤ y) :
    roundMagnitude x ≤ roundMagnitude y := by
  rcases hx.lt_or_eq with pos | rfl
  · rcases (ulpExponent_mono pos h).lt_or_eq with apart | same
    · -- A power of two stands between numbers of different exponents.
      have normal : -1074 < ulpExponent y := by
        have : -1074 ≤ ulpExponent x := le_max_right _ _
        omega
      calc roundMagnitude x
        _ ≤ 2 ^ (ulpExponent x + 53) := roundMagnitude_le x
        _ ≤ 2 ^ (ulpExponent y + 52) := zpow_le_zpow_right₀ (by norm_num) (by omega)
        _ ≤ roundMagnitude y := le_roundMagnitude (pos.trans_le h) normal
    · have ulps : ulp x = ulp y := by rw [ulp, ulp, same]
      have quotients : x / ulp x ≤ y / ulp y := by
        rw [ulps]
        exact div_le_div_of_nonneg_right h (ulp_pos y).le
      have wholes : (halfEven (x / ulp x) : ℝ) ≤ halfEven (y / ulp y) := by
        exact_mod_cast halfEven_mono quotients
      calc roundMagnitude x
        _ = halfEven (x / ulp x) * ulp y := by rw [roundMagnitude, ulps]
        _ ≤ roundMagnitude y := mul_le_mul_of_nonneg_right wholes (ulp_pos y).le
  · rw [roundMagnitude_zero]
    exact roundMagnitude_nonneg h

/-- The exponent of a number is told by its first binary digits. -/
theorem ulpExponent_of_mantissa {m : ℕ} (hm : 0 < m) {e : ℤ} {x : ℝ} (low : m * 2 ^ e ≤ x)
    (high : x < (m + 1) * 2 ^ e) : ulpExponent x = max (m.log2 + e - 52) (-1074) := by
  have pos : (0 : ℝ) < 2 ^ e := zpow_pos (by norm_num) _
  have lowest : (2 : ℝ) ^ m.log2 ≤ m := by exact_mod_cast Nat.log2_self_le hm.ne'
  have highest : (m : ℝ) + 1 ≤ 2 ^ (m.log2 + 1) := by exact_mod_cast Nat.lt_log2_self
  have hx : 0 < x := (mul_pos (by exact_mod_cast hm) pos).trans_le low
  have below : ((2 : ℕ) : ℝ) ^ ((m.log2 : ℤ) + e) ≤ x := by
    rw [Nat.cast_ofNat, zpow_add₀ (by norm_num), zpow_natCast]
    exact (mul_le_mul_of_nonneg_right lowest pos.le).trans low
  have above : x < ((2 : ℕ) : ℝ) ^ ((m.log2 : ℤ) + e + 1) := by
    rw [Nat.cast_ofNat, add_right_comm, zpow_add₀ (by norm_num)]
    refine high.trans_le (mul_le_mul_of_nonneg_right ?_ pos.le)
    exact_mod_cast highest
  have atLeast := (Int.zpow_le_iff_le_log (by decide) hx).1 below
  have atMost := (Int.lt_zpow_iff_log_lt (by decide) hx).1 above
  have exponent : Int.log 2 x = m.log2 + e := by omega
  rw [ulpExponent, exponent]

theorem ulpExponent_natCast_mul {m : ℕ} (hm : 0 < m) (e : ℤ) :
    ulpExponent (m * 2 ^ e) = max (m.log2 + e - 52) (-1074) := by
  have pos : (0 : ℝ) < 2 ^ e := zpow_pos (by norm_num) _
  exact ulpExponent_of_mantissa hm le_rfl (by linarith)

/-- Multiples of the distance between neighbours stay as they are. -/
theorem roundMagnitude_of_grid {m : ℕ} {e : ℤ} (unit : ulpExponent (m * 2 ^ e) = e) :
    roundMagnitude (m * 2 ^ e) = m * 2 ^ e := by
  have pos : (0 : ℝ) < 2 ^ e := zpow_pos (by norm_num) _
  have quotient : (m * 2 ^ e : ℝ) / 2 ^ e = ((m : ℤ) : ℝ) := by
    rw [mul_div_cancel_right₀ _ pos.ne', Int.cast_natCast]
  rw [roundMagnitude, ulp, unit, quotient, halfEven_intCast, Int.cast_natCast]

/-! ## Numbers with a sign -/

/-- A number rounded to the nearest binary64 number, were there no largest one. -/
noncomputable def rounded (x : ℝ) : ℝ :=
  if x < 0 then -roundMagnitude (-x) else roundMagnitude x

theorem rounded_of_nonneg {x : ℝ} (hx : 0 ≤ x) : rounded x = roundMagnitude x := by
  rw [rounded, if_neg (not_lt.2 hx)]

theorem rounded_zero : rounded 0 = 0 := by
  rw [rounded_of_nonneg le_rfl, roundMagnitude_zero]

theorem rounded_neg (x : ℝ) : rounded (-x) = -rounded x := by
  rcases lt_trichotomy x 0 with neg | rfl | pos
  · rw [rounded_of_nonneg (by linarith), rounded, if_pos neg, neg_neg]
  · rw [neg_zero, rounded_zero, neg_zero]
  · rw [rounded_of_nonneg pos.le, rounded, if_pos (by linarith), neg_neg]

/-- **Rounding keeps the order.** -/
theorem rounded_mono {x y : ℝ} (h : x ≤ y) : rounded x ≤ rounded y := by
  rcases le_or_gt 0 x with hx | hx
  · rw [rounded_of_nonneg hx, rounded_of_nonneg (hx.trans h)]
    exact roundMagnitude_mono hx h
  · rw [rounded, if_pos hx]
    rcases le_or_gt 0 y with hy | hy
    · have below := roundMagnitude_nonneg (by linarith : 0 ≤ -x)
      have above := roundMagnitude_nonneg hy
      rw [rounded_of_nonneg hy]
      linarith
    · rw [rounded, if_pos hy]
      have := roundMagnitude_mono (by linarith : 0 ≤ -y) (by linarith : -y ≤ -x)
      linarith

/-! ## Overflow -/

/-- The first power of two that is too large for binary64. -/
noncomputable def limit : ℝ := 2 ^ 1024

/-- Whatever is too large stands for an infinity. -/
noncomputable def overflow (x : ℝ) : ℝ := max (-limit) (min limit x)

/-- The nearest binary64 number, or the infinity that stands for it. -/
noncomputable def nearest (x : ℝ) : ℝ := overflow (rounded x)

theorem limit_pos : 0 < limit := pow_pos (by norm_num) _

theorem overflow_mono {x y : ℝ} (h : x ≤ y) : overflow x ≤ overflow y :=
  max_le_max le_rfl (min_le_min le_rfl h)

theorem overflow_of_abs_le {x : ℝ} (h : |x| ≤ limit) : overflow x = x := by
  obtain ⟨below, above⟩ := abs_le.1 h
  rw [overflow, min_eq_right above, max_eq_right below]

theorem overflow_of_le {x : ℝ} (h : limit ≤ x) : overflow x = limit := by
  have := limit_pos
  rw [overflow, min_eq_left h, max_eq_right (by linarith)]

theorem overflow_of_le_neg {x : ℝ} (h : x ≤ -limit) : overflow x = -limit := by
  have := limit_pos
  rw [overflow, min_eq_right (by linarith), max_eq_left h]

/-- **The nearest numbers stand in the same order.** -/
theorem nearest_mono {x y : ℝ} (h : x ≤ y) : nearest x ≤ nearest y :=
  overflow_mono (rounded_mono h)

theorem nearest_zero : nearest 0 = 0 := by
  rw [nearest, rounded_zero]
  exact overflow_of_abs_le (by rw [abs_zero]; exact limit_pos.le)

theorem nearest_nonneg {x : ℝ} (hx : 0 ≤ x) : 0 ≤ nearest x := by
  have := nearest_mono hx
  rwa [nearest_zero] at this

theorem nearest_nonpos {x : ℝ} (hx : x ≤ 0) : nearest x ≤ 0 := by
  have := nearest_mono hx
  rwa [nearest_zero] at this

theorem nearest_neg (x : ℝ) : nearest (-x) = -nearest x := by
  rw [nearest, nearest, rounded_neg]
  rcases le_total |rounded x| limit with small | large
  · rw [overflow_of_abs_le (by rwa [abs_neg]), overflow_of_abs_le small]
  · rcases le_abs.1 large with above | below
    · rw [overflow_of_le above, overflow_of_le_neg (neg_le_neg above)]
    · rw [overflow_of_le below, overflow_of_le_neg (by linarith), neg_neg]

theorem abs_nearest (x : ℝ) : |nearest x| = nearest |x| := by
  rcases le_total 0 x with nonneg | nonpos
  · rw [abs_of_nonneg nonneg, abs_of_nonneg (nearest_nonneg nonneg)]
  · rw [abs_of_nonpos nonpos, abs_of_nonpos (nearest_nonpos nonpos), nearest_neg]

/-- Powers of two stay as they are. -/
theorem rounded_two_pow (n : ℕ) : rounded (2 ^ n) = 2 ^ n := by
  have split : (2 : ℝ) ^ n = (2 ^ 52 : ℕ) * 2 ^ (n - 52 : ℤ) := by
    rw [Nat.cast_pow, Nat.cast_ofNat, ← zpow_natCast, ← zpow_natCast, ← zpow_add₀ (by norm_num)]
    congr 1
    omega
  have unit : ulpExponent ((2 ^ 52 : ℕ) * 2 ^ (n - 52 : ℤ)) = n - 52 := by
    rw [ulpExponent_natCast_mul (by norm_num), Nat.log2_two_pow]
    omega
  rw [rounded_of_nonneg (by positivity), split, roundMagnitude_of_grid unit]

theorem nearest_two_pow {n : ℕ} (small : n ≤ 1024) : nearest (2 ^ n) = 2 ^ n := by
  rw [nearest, rounded_two_pow]
  refine overflow_of_abs_le ?_
  rw [abs_of_nonneg (by positivity)]
  exact pow_le_pow_right₀ (by norm_num) small

/-- What is too large stays so. -/
theorem nearest_of_le {x : ℝ} (h : limit ≤ x) : nearest x = limit := by
  have above := rounded_mono h
  rw [show rounded limit = limit from rounded_two_pow 1024] at above
  exact overflow_of_le above

end FleetMatch.Scalar
