import FleetMatch.Proofs.Scalar.Operations

/-!
# Quotients

A quotient of two mantissas is an integer quotient and a remainder, and the remainder tells the two bits
that rounding needs.  Here mantissas may be of any length, as they are in powers of ten.

* `standsFor_quotient` — the integer quotient with its accuracy stands for the quotient.
* `roundWithAccuracy_none_rounds` — at the least exponent nothing is cut off, even if no digit is left.
* `div_rounds`, `mul_rounds_of_long` — quotients of any mantissas and products of long ones are rounded.
* `div_gives`, `mul_gives` — quotients and products of binary64 numbers.
-/

set_option autoImplicit false

namespace FleetMatch.Scalar

open Float.Model Float.Model.UnpackedFloat

/-- **The integer quotient with its accuracy stands for the quotient.** -/
theorem standsFor_quotient (n : ℕ) {d : ℕ} (hd : 0 < d) :
    StandsFor (.ofMantissaAndAccuracy (n / d) (accuracyOfFraction (n % d) d)) (n / d : ℝ) := by
  have pos : (0 : ℝ) < d := by exact_mod_cast hd
  have less : n % d < d := Nat.mod_lt n hd
  have quotient : (n / d : ℝ) = (n / d : ℕ) + (n % d : ℕ) / (d : ℝ) := by
    have split : (n : ℝ) = d * (n / d : ℕ) + (n % d : ℕ) := by
      exact_mod_cast (Nat.div_add_mod n d).symm
    rw [div_eq_iff pos.ne', add_mul, div_mul_cancel₀ _ pos.ne', mul_comm ((n / d : ℕ) : ℝ)]
    exact split
  rw [quotient]
  generalize n / d = q
  generalize n % d = r at less
  have nonneg : (0 : ℝ) ≤ r / d := div_nonneg (Nat.cast_nonneg r) pos.le
  have below : (r : ℝ) / d < 1 := by
    rw [div_lt_one pos]
    exact_mod_cast less
  have half : (1 : ℝ) / 2 ≤ r / d ↔ d ≤ 2 * r := by
    rw [div_le_div_iff₀ (by norm_num) pos, one_mul, mul_comm]
    exact_mod_cast Iff.rfl
  have middle : (r : ℝ) / d = 1 / 2 ↔ 2 * r = d := by
    rw [div_eq_div_iff pos.ne' (by norm_num), one_mul, mul_comm]
    exact_mod_cast Iff.rfl
  have whole : (r : ℝ) / d = 0 ↔ r = 0 := by
    rw [div_eq_zero_iff, or_iff_left pos.ne']
    exact_mod_cast Iff.rfl
  have mantissa : (ExtendedMantissa.ofMantissaAndAccuracy q (accuracyOfFraction r d)).mantissa = q := by
    generalize accuracyOfFraction r d = accuracy
    rcases accuracy with _ | (_ | _ | _) <;> rfl
  refine ⟨?_, ?_, ?_, ?_⟩ <;> rw [mantissa]
  · linarith
  · linarith
  · rw [add_le_add_iff_left, half]
    unfold accuracyOfFraction
    by_cases exact : r = 0
    · rw [if_pos exact]
      exact ⟨fun set => absurd set Bool.false_ne_true, fun _ => by omega⟩
    · rw [if_neg exact]
      cases order : compare (2 * r) d with
      | lt => exact ⟨fun set => absurd set Bool.false_ne_true, fun _ => by have := Nat.compare_eq_lt.1 order; omega⟩
      | eq => exact ⟨fun _ => (Nat.compare_eq_eq.1 order).ge, fun _ => rfl⟩
      | gt => exact ⟨fun _ => (Nat.compare_eq_gt.1 order).le, fun _ => rfl⟩
  · rw [Ne, Ne, add_eq_left, add_right_inj, whole, middle]
    unfold accuracyOfFraction
    by_cases exact : r = 0
    · rw [if_pos exact]
      exact ⟨fun set => absurd set Bool.false_ne_true, fun apart => absurd exact apart.1⟩
    · rw [if_neg exact]
      cases order : compare (2 * r) d with
      | lt => exact ⟨fun _ => ⟨exact, (Nat.compare_eq_lt.1 order).ne⟩, fun _ => rfl⟩
      | eq => exact ⟨fun set => absurd set Bool.false_ne_true, fun apart => absurd (Nat.compare_eq_eq.1 order) apart.2⟩
      | gt => exact ⟨fun _ => ⟨exact, (Nat.compare_eq_gt.1 order).ne'⟩, fun _ => rfl⟩

/-- With the least exponent nothing more is cut off, even where no digit is left. -/
theorem roundWithAccuracy_none_rounds (s : Sign) {accuracy : Accuracy} {x : ℝ} (hx : 0 < x)
    (stands : StandsFor (.ofMantissaAndAccuracy 0 accuracy) (x / 2 ^ (-1074 : ℤ))) :
    Rounds (roundWithAccuracy .binary64 s 0 (-1074) accuracy) (signed s x) := by
  have pos : (0 : ℝ) < 2 ^ (-1074 : ℤ) := zpow_pos (by norm_num) _
  have mantissa : (ExtendedMantissa.ofMantissaAndAccuracy 0 accuracy).mantissa = 0 := by
    rcases accuracy with _ | (_ | _ | _) <;> rfl
  have high := stands.high
  rw [mantissa, Nat.cast_zero, zero_add, div_lt_one pos] at high
  have least := ulpExponent_of_small hx high
  have whole := stands.roundedMantissa
  have none : shiftToTargetExponent .binary64 0 (-1074) accuracy =
      (ExtendedMantissa.ofMantissaAndAccuracy 0 accuracy, -1074) := by
    rw [shiftToTargetExponent_eq]
    rfl
  have value : roundMagnitude x =
      ((ExtendedMantissa.ofMantissaAndAccuracy 0 accuracy).roundedMantissa : ℕ) * 2 ^ (-1074 : ℤ) := by
    rw [roundMagnitude, ulp, least, ← whole, Int.cast_natCast]
  have short : (ExtendedMantissa.ofMantissaAndAccuracy 0 accuracy).roundedMantissa ≤ 2 ^ 53 := by
    have := halfEven_le (x / 2 ^ (-1074 : ℤ))
    have := Int.floor_lt.2 (show x / 2 ^ (-1074 : ℤ) < ((1 : ℤ) : ℝ) by
      rw [Int.cast_one, div_lt_one pos]
      exact high)
    omega
  unfold roundWithAccuracy
  rw [none]
  exact finish_rounds s value hx.le short le_rfl (.inr rfl)

/-- The exponent of a quotient. -/
def quotientExponent (m : ℕ) (e : ℤ) (m' : ℕ) (e' : ℤ) : ℤ :=
  min (e - e') (max (((m.log2 : ℤ) + 1 + e) - (m'.log2 + 1 + e') - 53) (-1074))

/-- The mantissa that is divided. -/
def dividend (m : ℕ) (e : ℤ) (m' : ℕ) (e' : ℤ) : ℕ := m <<< (e - e' - quotientExponent m e m' e').toNat

theorem div_eq {m m' : ℕ} (hm : 0 < m) (hm' : 0 < m') (e e' : ℤ) :
    UnpackedFloat.div .binary64 (.finite .positive m e hm) (.finite .positive m' e' hm') =
      roundWithAccuracy .binary64 .positive (dividend m e m' e' / m') (quotientExponent m e m' e')
        (accuracyOfFraction (dividend m e m' e' % m') m') := rfl

theorem quotientExponent_le (m : ℕ) (e : ℤ) (m' : ℕ) (e' : ℤ) : quotientExponent m e m' e' ≤ e - e' :=
  min_le_left _ _

/-- The integer quotient has enough digits, except at the least exponent. -/
theorem two_pow_le_quotient {m m' : ℕ} (hm : 0 < m) (hm' : 0 < m') {e e' : ℤ}
    (normal : -1074 < quotientExponent m e m' e') : 2 ^ 52 ≤ dividend m e m' e' / m' := by
  have digits := log2_shiftLeft hm (e - e' - quotientExponent m e m' e').toNat
  have least := quotientExponent_le m e m' e'
  have target : quotientExponent m e m' e' ≤
      max (((m.log2 : ℤ) + 1 + e) - (m'.log2 + 1 + e') - 53) (-1074) := min_le_right _ _
  have pos : dividend m e m' e' ≠ 0 := by
    rw [dividend, Nat.shiftLeft_eq]
    exact (Nat.mul_pos hm (Nat.two_pow_pos _)).ne'
  have many : m'.log2 + 53 ≤ (dividend m e m' e').log2 := by
    unfold dividend
    omega
  rw [Nat.le_div_iff_mul_le hm']
  calc 2 ^ 52 * m'
    _ ≤ 2 ^ 52 * 2 ^ (m'.log2 + 1) := Nat.mul_le_mul_left _ Nat.lt_log2_self.le
    _ = 2 ^ (m'.log2 + 53) := by rw [← pow_add, Nat.add_comm, Nat.add_assoc]
    _ ≤ dividend m e m' e' := (Nat.le_log2 pos).1 many

/-- **Quotients are rounded**, whatever the mantissas are. -/
theorem div_rounds {m m' : ℕ} (hm : 0 < m) (hm' : 0 < m') (e e' : ℤ) (least : -1074 ≤ e - e') :
    Rounds (UnpackedFloat.div .binary64 (.finite .positive m e hm) (.finite .positive m' e' hm'))
      (m * 2 ^ e / (m' * 2 ^ e')) := by
  have value : (m * 2 ^ e / (m' * 2 ^ e') : ℝ) / 2 ^ quotientExponent m e m' e' =
      (dividend m e m' e' : ℕ) / (m' : ℕ) := by
    have lengthened := shiftLeft_mul_zpow m (e - e' - quotientExponent m e m' e').toNat (e - e')
    rw [Int.toNat_of_nonneg (by have := quotientExponent_le m e m' e'; omega), sub_sub_cancel] at lengthened
    have pos : (0 : ℝ) < 2 ^ quotientExponent m e m' e' := zpow_pos (by norm_num) _
    rw [mul_div_mul_comm, ← zpow_sub₀ (by norm_num), div_mul_eq_mul_div, ← lengthened, div_right_comm,
      mul_div_cancel_right₀ _ pos.ne']
    rfl
  have stands := standsFor_quotient (dividend m e m' e') hm'
  rw [← value] at stands
  have positive : (0 : ℝ) < m * 2 ^ e / (m' * 2 ^ e') := div_pos (magnitude_pos hm e) (magnitude_pos hm' e')
  have lowest : -1074 ≤ quotientExponent m e m' e' := le_min least (le_max_right _ _)
  rw [div_eq]
  rcases lowest.lt_or_eq with normal | exponent
  · have large := two_pow_le_quotient hm hm' normal
    have digits : 52 ≤ (dividend m e m' e' / m').log2 := (Nat.le_log2 (by omega)).2 large
    exact roundWithAccuracy_rounds .positive (by omega) (by omega) stands
  · rw [← exponent] at stands ⊢
    rcases Nat.eq_zero_or_pos (dividend m e m' e' / m') with none | some
    · rw [none] at stands ⊢
      exact roundWithAccuracy_none_rounds .positive positive stands
    · exact roundWithAccuracy_rounds .positive some (le_max_right _ _) stands

/-- **Products of long mantissas are rounded.** -/
theorem mul_rounds_of_long {m m' : ℕ} (hm : 0 < m) (hm' : 0 < m') (e e' : ℤ) (long : 2 ^ 52 ≤ m) :
    Rounds (UnpackedFloat.mul .binary64 (.finite .positive m e hm) (.finite .positive m' e' hm'))
      (m * 2 ^ e * (m' * 2 ^ e')) := by
  have whole : m * m' ≠ 0 := (Nat.mul_pos hm hm').ne'
  have digits : 52 ≤ (m * m').log2 := (Nat.le_log2 whole).2 (long.trans (Nat.le_mul_of_pos_right m hm'))
  have rounds := roundWithAccuracy_exact_rounds .positive (e := e + e') (Nat.mul_pos hm hm') (by omega)
  have value : ((m * m' : ℕ) : ℝ) * 2 ^ (e + e') = m * 2 ^ e * (m' * 2 ^ e') := by
    rw [Nat.cast_mul, zpow_add₀ (by norm_num)]
    ring
  rw [value] at rounds
  exact rounds

/-! ## Binary64 numbers -/

variable {x y : Float}

/-- **Products of finite numbers.** -/
theorem mul_gives (hx : x.isFinite = true) (hy : y.isFinite = true) :
    Gives (x * y) (value x * value y) :=
  (mul_rounds (fits_unpack x).canonical (fits_unpack y).canonical hx hy).gives

/-- **Quotients of magnitudes** that are not too small. -/
theorem div_gives {m m' : ℕ} {e e' : ℤ} {hm : 0 < m} {hm' : 0 < m'}
    (hx : x.toModel.unpack = .finite .positive m e hm)
    (hy : y.toModel.unpack = .finite .positive m' e' hm') (least : -1074 ≤ e - e') :
    Gives (x / y) (m * 2 ^ e / (m' * 2 ^ e')) := by
  have packs : x / y = packed (UnpackedFloat.div .binary64 x.toModel.unpack y.toModel.unpack) := rfl
  rw [packs, hx, hy]
  exact (div_rounds hm hm' e e' least).gives

end FleetMatch.Scalar
