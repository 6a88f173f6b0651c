import Mathlib.Analysis.Real.Sqrt
import FleetMatch.Proofs.Scalar.Unpacked
import FleetMatch.Scalar.Order

/-!
# Arithmetic on unpacked numbers

Sums, differences, products and square roots of finite numbers are the rounded real results.  A sum
brings its operands to one exponent, a product multiplies mantissas, and a root is an integer root of a
mantissa that is long enough; each then rounds once.

* `sub_rounds`, `add_rounds`, `mul_rounds`, `sqrt_rounds` — the operations round the real results.
* `standsFor_sqrt` — the remainder of an integer root tells the two bits that rounding needs.
-/

set_option autoImplicit false

namespace FleetMatch.Scalar

open Float.Model Float.Model.UnpackedFloat

variable {u v : UnpackedFloat}

/-! ## Sums and differences -/

/-- A mantissa that is brought to a smaller exponent is an integer multiple of its unit. -/
theorem apply_decreaseExponent (s : Sign) (m : ℕ) {e t : ℤ} (h : t ≤ e) :
    ((s.apply (decreaseExponent m e t).1 : ℤ) : ℝ) * 2 ^ t = signed s (m * 2 ^ e) := by
  have aligned : (((decreaseExponent m e t).1 : ℕ) : ℝ) * 2 ^ t = m * 2 ^ e := by
    have same := shiftLeft_mul_zpow m (e - t).toNat e
    rwa [Int.toNat_of_nonneg (by omega), sub_sub_cancel] at same
  rw [← aligned]
  cases s with
  | negative =>
    show ((-((decreaseExponent m e t).1 : ℤ) : ℤ) : ℝ) * 2 ^ t = _
    rw [Int.cast_neg, neg_mul]
    rfl
  | positive => rfl

theorem signed_neg (s : Sign) (x : ℝ) : signed (-s) x = -signed s x := by
  cases s with
  | negative => exact (neg_neg x).symm
  | positive => rfl

/-- **Differences are rounded.** -/
theorem sub_rounds (hu : Canonical u) (hv : Canonical v) (fu : u.isFinite = true)
    (fv : v.isFinite = true) :
    Rounds (UnpackedFloat.sub .binary64 u v) (realValue u - realValue v) := by
  rcases u with _ | _ | s | ⟨s, m, e, hm⟩ <;> try cases fu
  · rcases v with _ | _ | s' | ⟨s', m', e', hm'⟩ <;> try cases fv
    · have value : realValue (.zero s) - realValue (.zero s') = 0 := sub_self 0
      rw [value]
      cases s <;> cases s' <;> exact ⟨rounded_zero.symm, trivial, rfl⟩
    · refine ⟨?_, hv, rfl⟩
      show signed (-s') (m' * 2 ^ e') = rounded (0 - signed s' (m' * 2 ^ e'))
      rw [signed_neg, zero_sub, rounded_neg, rounded_of_canonical hv]
  · rcases v with _ | _ | s' | ⟨s', m', e', hm'⟩ <;> try cases fv
    · refine ⟨?_, hu, rfl⟩
      show signed s (m * 2 ^ e) = rounded (signed s (m * 2 ^ e) - 0)
      rw [sub_zero, rounded_of_canonical hu]
    · have rounds := normalize_rounds (s.apply (decreaseExponent m e (min e e')).1 -
        s'.apply (decreaseExponent m' e' (min e e')).1) (min e e') .positive
      rw [Int.cast_sub, sub_mul, apply_decreaseExponent s m (min_le_left e e'),
        apply_decreaseExponent s' m' (min_le_right e e')] at rounds
      exact rounds

/-- **Sums are rounded.** -/
theorem add_rounds (hu : Canonical u) (hv : Canonical v) (fu : u.isFinite = true)
    (fv : v.isFinite = true) :
    Rounds (UnpackedFloat.add .binary64 u v) (realValue u + realValue v) := by
  rcases u with _ | _ | s | ⟨s, m, e, hm⟩ <;> try cases fu
  · rcases v with _ | _ | s' | ⟨s', m', e', hm'⟩ <;> try cases fv
    · have value : realValue (.zero s) + realValue (.zero s') = 0 := add_zero 0
      rw [value]
      cases s <;> cases s' <;> exact ⟨rounded_zero.symm, trivial, rfl⟩
    · refine ⟨?_, hv, rfl⟩
      show signed s' (m' * 2 ^ e') = rounded (0 + signed s' (m' * 2 ^ e'))
      rw [zero_add, rounded_of_canonical hv]
  · rcases v with _ | _ | s' | ⟨s', m', e', hm'⟩ <;> try cases fv
    · refine ⟨?_, hu, rfl⟩
      show signed s (m * 2 ^ e) = rounded (signed s (m * 2 ^ e) + 0)
      rw [add_zero, rounded_of_canonical hu]
    · have rounds := normalize_rounds (s.apply (decreaseExponent m e (min e e')).1 +
        s'.apply (decreaseExponent m' e' (min e e')).1) (min e e') .positive
      rw [Int.cast_add, add_mul, apply_decreaseExponent s m (min_le_left e e'),
        apply_decreaseExponent s' m' (min_le_right e e')] at rounds
      exact rounds

/-! ## Products -/

theorem signed_mul (s s' : Sign) (x y : ℝ) : signed (s * s') (x * y) = signed s x * signed s' y := by
  cases s <;> cases s'
  · exact (neg_mul_neg x y).symm
  · exact (neg_mul x y).symm
  · exact (mul_neg x y).symm
  · rfl

/-- **Products are rounded.** -/
theorem mul_rounds (hu : Canonical u) (hv : Canonical v) (fu : u.isFinite = true)
    (fv : v.isFinite = true) :
    Rounds (UnpackedFloat.mul .binary64 u v) (realValue u * realValue v) := by
  rcases u with _ | _ | s | ⟨s, m, e, hm⟩ <;> try cases fu
  · have value : realValue (.zero s) * realValue v = 0 := zero_mul _
    rw [value]
    rcases v with _ | _ | s' | ⟨s', m', e', hm'⟩ <;> try cases fv
    · exact ⟨rounded_zero.symm, trivial, rfl⟩
    · exact ⟨rounded_zero.symm, trivial, rfl⟩
  · rcases v with _ | _ | s' | ⟨s', m', e', hm'⟩ <;> try cases fv
    · have value : realValue (.finite s m e hm) * realValue (.zero s') = 0 := mul_zero _
      rw [value]
      exact ⟨rounded_zero.symm, trivial, rfl⟩
    · -- A product of two short mantissas has the least exponent of both, so digits are cut off anyway.
      have long : e + e' ≤ max ((m * m').log2 + (e + e') - 52) (-1074) := by
        obtain ⟨-, least, long⟩ := hu
        obtain ⟨-, least', long'⟩ := hv
        have whole : m * m' ≠ 0 := (Nat.mul_pos hm hm').ne'
        rcases long with long | rfl
        · have digits : 52 ≤ (m * m').log2 :=
            (Nat.le_log2 whole).2 (long.trans (Nat.le_mul_of_pos_right m hm'))
          omega
        · rcases long' with long' | rfl
          · have digits : 52 ≤ (m * m').log2 :=
              (Nat.le_log2 whole).2 (long'.trans (Nat.le_mul_of_pos_left m' hm))
            omega
          · omega
      have rounds := roundWithAccuracy_exact_rounds (s * s') (Nat.mul_pos hm hm') long
      have value : ((m * m' : ℕ) : ℝ) * 2 ^ (e + e') = m * 2 ^ e * (m' * 2 ^ e') := by
        rw [Nat.cast_mul, zpow_add₀ (by norm_num)]
        ring
      rw [value, signed_mul] at rounds
      exact rounds

/-! ## Square roots -/

/-- How the integer root of a number relates to its root. -/
def rootAccuracy (n : ℕ) : Accuracy :=
  if n - n.sqrt * n.sqrt = 0 then .exact
  else .inexact (if n - n.sqrt * n.sqrt ≤ n.sqrt then .lt else .gt)

/-- A root is at most half above its integer root, or above that by the remainder. -/
theorem half_le_sqrt_iff {n r : ℕ} : (r : ℝ) + 1 / 2 ≤ √n ↔ r * r + r < n := by
  rw [Real.le_sqrt' (by positivity)]
  have square : ((r : ℝ) + 1 / 2) ^ 2 = ((r * r + r : ℕ) : ℝ) + 1 / 4 := by
    push_cast
    ring
  rw [square]
  constructor
  · intro above
    by_contra below
    have : (n : ℝ) ≤ (r * r + r : ℕ) := by exact_mod_cast not_lt.1 below
    linarith
  · intro above
    have : ((r * r + r : ℕ) : ℝ) + 1 ≤ n := by exact_mod_cast above
    linarith

/-- **The integer root with its accuracy stands for the root.** -/
theorem standsFor_sqrt (n : ℕ) : StandsFor (.ofMantissaAndAccuracy n.sqrt (rootAccuracy n)) √n := by
  have low := Nat.sqrt_le n
  have high := Nat.lt_succ_sqrt n
  have half := @half_le_sqrt_iff n n.sqrt
  unfold rootAccuracy
  generalize n.sqrt = r at low high half
  have below : (r : ℝ) ≤ √n := Real.le_sqrt_of_sq_le (by rw [sq]; exact_mod_cast low)
  have above : √n < (r : ℝ) + 1 := by
    rw [Real.sqrt_lt' (by positivity), sq]
    exact_mod_cast high
  by_cases whole : n - r * r = 0
  · have square : n = r * r := by omega
    have root : √n = (r : ℝ) := by
      rw [square, Nat.cast_mul]
      exact Real.sqrt_mul_self (Nat.cast_nonneg r)
    rw [if_pos whole, root]
    exact standsFor_exact r
  · have apart : √n ≠ (r : ℝ) := by
      intro root
      have square := Real.mul_self_sqrt (Nat.cast_nonneg n : (0 : ℝ) ≤ n)
      rw [root] at square
      have : r * r = n := by exact_mod_cast square
      omega
    rw [if_neg whole]
    by_cases less : n - r * r ≤ r
    · have lower : ¬ (r : ℝ) + 1 / 2 ≤ √n := by
        rw [half]
        omega
      rw [if_pos less]
      refine ⟨below, above, ⟨nofun, fun h => absurd h lower⟩, ⟨fun _ => ⟨apart, ?_⟩, fun _ => rfl⟩⟩
      intro middle
      exact lower middle.ge
    · have upper : (r : ℝ) + 1 / 2 ≤ √n := by
        rw [half]
        omega
      rw [if_neg less]
      refine ⟨below, above, ⟨fun _ => upper, fun _ => rfl⟩, ⟨fun _ => ⟨apart, ?_⟩, fun _ => rfl⟩⟩
      -- Four times a square of a half-integer is odd, so no integer is such a square.
      intro middle
      have square := Real.mul_self_sqrt (Nat.cast_nonneg n : (0 : ℝ) ≤ n)
      rw [show √n = (r : ℝ) + 1 / 2 from middle] at square
      have odd : 4 * (r * r) + 4 * r + 1 = 4 * n := by
        have : (4 * (r * r) + 4 * r + 1 : ℝ) = 4 * n := by linarith
        exact_mod_cast this
      omega

/-- The exponent of a root. -/
def rootExponent (m : ℕ) (e : ℤ) : ℤ := min (e.ediv 2) (max ((m.log2 + 1 + e + 1).ediv 2 - 53) (-1074))

/-- The mantissa whose integer root is taken. -/
def radicand (m : ℕ) (e : ℤ) : ℕ := m <<< (e - 2 * rootExponent m e).toNat

theorem two_mul_rootExponent_le (m : ℕ) (e : ℤ) : 2 * rootExponent m e ≤ e := by
  have := Int.ediv_mul_le e (by decide : (2 : ℤ) ≠ 0)
  have : rootExponent m e ≤ e.ediv 2 := min_le_left _ _
  have : e.ediv 2 = e / 2 := rfl
  omega

theorem radicand_mul_zpow (m : ℕ) (e : ℤ) :
    (radicand m e : ℝ) * (2 ^ rootExponent m e) ^ 2 = m * 2 ^ e := by
  have even := two_mul_rootExponent_le m e
  have same := shiftLeft_mul_zpow m (e - 2 * rootExponent m e).toNat e
  rw [Int.toNat_of_nonneg (by omega), sub_sub_cancel] at same
  rw [radicand, ← same, ← zpow_natCast, ← zpow_mul, mul_comm (rootExponent m e)]
  rfl

theorem radicand_pos {m : ℕ} (hm : 0 < m) (e : ℤ) : 0 < radicand m e := by
  rw [radicand, Nat.shiftLeft_eq]
  exact Nat.mul_pos hm (Nat.two_pow_pos _)

/-- The integer root has enough digits. -/
theorem rootExponent_le {m : ℕ} (hm : 0 < m) (e : ℤ) : rootExponent m e ≤
    max ((radicand m e).sqrt.log2 + rootExponent m e - 52) (-1074) := by
  have even := two_mul_rootExponent_le m e
  have digits := log2_shiftLeft hm (e - 2 * rootExponent m e).toNat
  have least : rootExponent m e ≤ max ((m.log2 + 1 + e + 1).ediv 2 - 53) (-1074) := min_le_right _ _
  have half : (m.log2 + 1 + e + 1 : ℤ).ediv 2 = (m.log2 + 1 + e + 1 : ℤ) / 2 := rfl
  by_cases small : rootExponent m e ≤ -1074
  · omega
  · have many : 104 ≤ (radicand m e).log2 := by
      unfold radicand
      omega
    have large : 2 ^ 104 ≤ radicand m e := (Nat.le_log2 (radicand_pos hm e).ne').1 many
    have root : 2 ^ 52 ≤ (radicand m e).sqrt := by
      rw [Nat.le_sqrt]
      exact large
    have enough : 52 ≤ (radicand m e).sqrt.log2 := (Nat.le_log2 (by omega)).2 root
    omega

/-- **Square roots are rounded.** -/
theorem sqrt_rounds (hu : Canonical u) (fu : u.isFinite = true) (nonneg : 0 ≤ realValue u) :
    Rounds (UnpackedFloat.sqrt .binary64 u) √(realValue u) := by
  rcases u with _ | _ | s | ⟨s, m, e, hm⟩ <;> try cases fu
  · have value : √(realValue (.zero s)) = 0 := Real.sqrt_zero
    rw [value]
    exact ⟨rounded_zero.symm, trivial, rfl⟩
  · have pos : (0 : ℝ) < m * 2 ^ e := mul_pos (by exact_mod_cast hm) (zpow_pos (by norm_num) _)
    cases s with
    | negative =>
      have neg : realValue (.finite .negative m e hm) = -(m * 2 ^ e) := rfl
      linarith
    | positive =>
      have unit : (0 : ℝ) < 2 ^ rootExponent m e := zpow_pos (by norm_num) _
      have quotient : √(m * 2 ^ e : ℝ) / 2 ^ rootExponent m e = √(radicand m e : ℝ) := by
        rw [← radicand_mul_zpow, Real.sqrt_mul (Nat.cast_nonneg _), Real.sqrt_sq unit.le,
          mul_div_cancel_right₀ _ unit.ne']
      have root : 0 < (radicand m e).sqrt := Nat.sqrt_pos.2 (radicand_pos hm e)
      have stands : StandsFor (.ofMantissaAndAccuracy (radicand m e).sqrt (rootAccuracy (radicand m e)))
          (√(m * 2 ^ e : ℝ) / 2 ^ rootExponent m e) := by
        rw [quotient]
        exact standsFor_sqrt (radicand m e)
      exact roundWithAccuracy_rounds .positive root (rootExponent_le hm e) stands

end FleetMatch.Scalar
