import FleetMatch.Decimal.Literal
import FleetMatch.Proofs.Scalar.Fields
import FleetMatch.Proofs.Scalar.Quotients

/-!
# Decimals are read correctly

Reading a decimal gives the binary64 number nearest to it.  Short decimals are read with one operation on
numbers that are exact, and all others with one operation on mantissas of any length; both round once.

* `isExactly`, `isExactly_exactPower` — the powers of ten that are exact.
* `ofScientific_gives` — what is read is nearest to the decimal.
* `ofDecimal_eq` — so a decimal that rounds to a number is read as this number, with its sign.
-/

set_option autoImplicit false

namespace FleetMatch.Decimal

open Float.Model Float.Model.UnpackedFloat Scalar

/-! ## Powers of ten -/

/-- The number is a natural number, and exactly that. -/
def isExactly (n : ℕ) : UnpackedFloat → Bool
  | .finite .positive m e _ => m * Nat.pow 2 e.toNat == n * Nat.pow 2 (-e).toNat && -52 ≤ e && e < 52
  | _ => false

theorem exists_of_isExactly {n : ℕ} {u : UnpackedFloat} (h : isExactly n u = true) :
    ∃ m e, ∃ hm : 0 < m, u = .finite .positive m e hm ∧ (m * 2 ^ e : ℝ) = n ∧ -52 ≤ e ∧ e < 52 := by
  rcases u with _ | _ | _ | ⟨_ | _, m, e, hm⟩ <;> try cases h
  have checks : (m * Nat.pow 2 e.toNat == n * Nat.pow 2 (-e).toNat && decide (-52 ≤ e) &&
      decide (e < 52)) = true := h
  rw [Bool.and_eq_true, Bool.and_eq_true, beq_iff_eq, decide_eq_true_eq, decide_eq_true_eq] at checks
  obtain ⟨⟨same, low⟩, high⟩ := checks
  refine ⟨m, e, hm, rfl, ?_, low, high⟩
  have cast : (m : ℝ) * 2 ^ (e.toNat : ℤ) = n * 2 ^ ((-e).toNat : ℤ) := by exact_mod_cast same
  have pos : (0 : ℝ) < 2 ^ ((-e).toNat : ℤ) := zpow_pos (by norm_num) _
  have exponent : e = (e.toNat : ℤ) - (-e).toNat := by omega
  rw [exponent, zpow_sub₀ (by norm_num), ← mul_div_assoc, cast, mul_div_cancel_right₀ _ pos.ne']

theorem size_powers {e : ℕ} (h : e ≤ 22) : e < Float.exactlyRepresentablePowersOfTen.size :=
  Nat.lt_of_le_of_lt h (by decide)

/-- The power of ten from the table of those that are exact. -/
def exactPower (e : ℕ) (h : e ≤ 22) : Float :=
  have := size_powers h
  Float.exactlyRepresentablePowersOfTen[e]

theorem isExactly_exactPower {e : ℕ} (h : e ≤ 22) :
    isExactly (Nat.pow 10 e) (exactPower e h).toModel.unpack = true := by
  have all : ∀ e : Fin 23, isExactly (Nat.pow 10 e)
      (exactPower e (Nat.le_of_lt_succ e.isLt)).toModel.unpack = true := by decide +kernel
  exact all ⟨e, Nat.lt_succ_of_le h⟩

/-! ## Mantissas -/

/-- A whole number of at most 53 binary digits, with all of them. -/
theorem fits_lengthened {m : ℕ} (hm : 0 < m) (small : m < 2 ^ 53) :
    ∃ h, Fits (.finite .positive (m <<< (52 - m.log2)) (-((52 - m.log2 : ℕ) : ℤ)) h) := by
  have digits : m.log2 < 53 := (Nat.log2_lt hm.ne').2 small
  have length := log2_shiftLeft hm (52 - m.log2)
  have pos : 0 < m <<< (52 - m.log2) := by
    rw [Nat.shiftLeft_eq]
    exact Nat.mul_pos hm (Nat.two_pow_pos _)
  have long : 2 ^ 52 ≤ m <<< (52 - m.log2) := (Nat.le_log2 pos.ne').1 (by omega)
  have short : m <<< (52 - m.log2) < 2 ^ 53 := (Nat.log2_lt pos.ne').1 (by omega)
  exact ⟨pos, ⟨short, by omega, .inl long⟩, overflowed_of_lt (by omega)⟩

/-- What fits is nearest to itself. -/
theorem nearest_of_fits {m : ℕ} {e : ℤ} {hm : 0 < m} (fits : Fits (.finite .positive m e hm)) :
    nearest (m * 2 ^ e) = m * 2 ^ e := by
  have fixed : rounded (m * 2 ^ e) = m * 2 ^ e := rounded_of_canonical fits.canonical
  rw [nearest, fixed]
  refine overflow_of_abs_le ?_
  rw [abs_of_pos (magnitude_pos hm e)]
  exact fits.magnitude_lt_limit.le

/-- A whole number of at most 53 binary digits is exact. -/
theorem unpack_toFloat {m : ℕ} (hm : 0 < m) (small : m < 2 ^ 53) :
    ∃ m' e, ∃ h : 0 < m', m.toUInt64.toFloat.toModel.unpack = .finite .positive m' e h ∧
      (m' * 2 ^ e : ℝ) = m ∧ -52 ≤ e ∧ e ≤ 0 := by
  obtain ⟨pos, fits⟩ := fits_lengthened hm small
  have same : ((m <<< (52 - m.log2) : ℕ) : ℝ) * 2 ^ (-((52 - m.log2 : ℕ) : ℤ)) = m := by
    have lengthened := shiftLeft_mul_zpow m (52 - m.log2) 0
    rwa [zero_sub, zpow_zero, mul_one] at lengthened
  have gives : Gives m.toUInt64.toFloat m := by
    have rounds := (normalize_rounds m.toUInt64.toNat 0 .positive).gives
    have whole : m.toUInt64.toNat = m := Nat.mod_eq_of_lt (by omega)
    rw [zpow_zero, mul_one, whole, Int.cast_natCast] at rounds
    have packs : m.toUInt64.toFloat = packed (normalize .binary64 m.toUInt64.toNat 0 .positive) := rfl
    rw [packs, whole]
    exact rounds
  have value := gives.value
  rw [← same, nearest_of_fits fits] at value
  exact ⟨_, _, pos, unpack_of_value fits gives.number value, same, by omega, by omega⟩

/-! ## Decimals -/

/-- A short decimal is read with one operation. -/
theorem ofScientific_of_short {m e : ℕ} (small : m < 2 ^ 53) (few : e ≤ 22) (s : Bool) :
    Float.ofScientific m s e =
      if s then m.toUInt64.toFloat / exactPower e few else m.toUInt64.toFloat * exactPower e few :=
  dif_pos ⟨small, few⟩

/-- All others are read with mantissas of any length. -/
theorem ofScientific_of_long {m e : ℕ} (long : ¬(m < 2 ^ 53 ∧ e ≤ 22)) (s : Bool) :
    Float.ofScientific m s e =
      packed (UnpackedFloat.ofScientific .binary64 m (if s then Int.negOfNat e else Int.ofNat e)) :=
  dif_neg long

/-- The rounding of a power of ten that is multiplied or divided by. -/
theorem ofScientific_rounds {m : ℕ} (hm : 0 < m) {e : ℤ} (low : -2048 ≤ e) (high : e ≤ 2048) :
    Rounds (UnpackedFloat.ofScientific .binary64 m e) (m * 10 ^ e) := by
  have powers (k : ℕ) : 0 < 10 ^ k := Nat.pow_pos (by decide)
  have notLarge : ¬e > 2 ^ 11 := by omega
  have notSmall : ¬e < -(2 ^ 11 + m.log2 : ℤ) := by omega
  unfold UnpackedFloat.ofScientific
  rw [dif_neg hm.ne', if_neg notLarge, if_neg notSmall]
  by_cases sign : 0 ≤ e
  · have longer : 0 < m <<< 53 := by
      rw [Nat.shiftLeft_eq]
      exact Nat.mul_pos hm (Nat.two_pow_pos _)
    have long : 2 ^ 52 ≤ m <<< 53 := by
      rw [Nat.shiftLeft_eq]
      omega
    have rounds := mul_rounds_of_long longer (powers e.toNat) (-53) 0 long
    have lengthened := shiftLeft_mul_zpow m 53 0
    rw [zero_sub, zpow_zero, mul_one] at lengthened
    have value : ((m <<< 53 : ℕ) : ℝ) * 2 ^ (-53 : ℤ) * ((10 ^ e.toNat : ℕ) * 2 ^ (0 : ℤ)) = m * 10 ^ e := by
      rw [zpow_zero, mul_one, Nat.cast_pow, Nat.cast_ofNat, ← zpow_natCast, Int.toNat_of_nonneg sign]
      exact congrArg (· * _) lengthened
    rw [value] at rounds
    rw [if_pos sign]
    exact rounds
  · have rounds := div_rounds hm (powers (-e).toNat) 0 0 (by decide)
    have value : (m * 2 ^ (0 : ℤ) / ((10 ^ (-e).toNat : ℕ) * 2 ^ (0 : ℤ)) : ℝ) = m * 10 ^ e := by
      rw [zpow_zero, mul_one, mul_one, Nat.cast_pow, Nat.cast_ofNat, ← zpow_natCast,
        Int.toNat_of_nonneg (by omega), div_eq_mul_inv, ← zpow_neg, neg_neg]
    rw [value] at rounds
    rw [if_neg sign]
    exact rounds

/-- **What is read is nearest to the decimal.** -/
theorem ofScientific_gives {m : ℕ} (hm : 0 < m) (s : Bool) {e : ℕ} (he : e ≤ 2048) :
    Gives (Float.ofScientific m s e) (m * 10 ^ (if s then -(e : ℤ) else e)) := by
  by_cases short : m < 2 ^ 53 ∧ e ≤ 22
  · obtain ⟨small, few⟩ := short
    obtain ⟨m', e', hm', hx, mantissa, low, high⟩ := unpack_toFloat hm small
    obtain ⟨p, q, hp, hy, power, low', high'⟩ := exists_of_isExactly (isExactly_exactPower few)
    have ten : ((Nat.pow 10 e : ℕ) : ℝ) = 10 ^ (e : ℤ) := by
      rw [zpow_natCast]
      exact_mod_cast rfl
    rw [ten] at power
    rw [ofScientific_of_short small few]
    cases s with
    | true =>
      have gives := div_gives hx hy (by omega)
      rw [mantissa, power, div_eq_mul_inv, ← zpow_neg] at gives
      exact gives
    | false =>
      have finite : ∀ {x : Float} {m e} {hm : 0 < m}, x.toModel.unpack = .finite .positive m e hm →
          x.isFinite = true ∧ value x = m * 2 ^ e := by
        intro x m e hm h
        refine ⟨?_, ?_⟩
        · show x.toModel.unpack.isFinite = true
          rw [h]
          rfl
        · rw [value, h]
          rfl
      have gives := mul_gives (finite hx).1 (finite hy).1
      rw [(finite hx).2, (finite hy).2, mantissa, power] at gives
      exact gives
  · rw [ofScientific_of_long short]
    cases s with
    | true =>
      have exponent : Int.negOfNat e = -(e : ℤ) := Int.negOfNat_eq
      rw [if_pos rfl, if_pos rfl, exponent]
      exact (ofScientific_rounds hm (by omega) (by omega)).gives
    | false =>
      have exponent : Int.ofNat e = (e : ℤ) := rfl
      rw [if_neg Bool.false_ne_true, if_neg Bool.false_ne_true, exponent]
      exact (ofScientific_rounds hm (by omega) (by omega)).gives

/-- What is read is nearest to the decimal, for a power of ten with a sign. -/
theorem ofScientific_gives_zpow {m : ℕ} (hm : 0 < m) {u : ℤ} (hu : u.natAbs ≤ 2048) :
    Gives (Float.ofScientific m (decide (u < 0)) u.natAbs) (m * 10 ^ u) := by
  have gives := ofScientific_gives hm (decide (u < 0)) hu
  have exponent : (if decide (u < 0) = true then -(u.natAbs : ℤ) else u.natAbs) = u := by
    by_cases neg : u < 0
    · rw [if_pos (decide_eq_true neg)]
      omega
    · rw [if_neg (by simpa using neg)]
      omega
  rwa [exponent] at gives

/-- The size of a number is at least one, and at most nineteen for numbers of eighteen digits. -/
theorem roughSize_le {c : ℕ} (hc : 0 < c) (few : c < 2 ^ 64) : 1 ≤ roughSize c ∧ roughSize c ≤ 19 := by
  have digits : c.log2 < 64 := (Nat.log2_lt hc.ne').2 few
  unfold roughSize
  omega

/-- Decimals whose size is in range are read as they are. -/
theorem ofDecimal_of_size (negative : Bool) {c : ℕ} {u : ℤ} (hc : 0 < c) (low : -400 ≤ u + roughSize c)
    (high : u + roughSize c ≤ 400) : ofDecimal negative c u =
      if negative then -Float.ofScientific c (decide (u < 0)) u.natAbs
      else Float.ofScientific c (decide (u < 0)) u.natAbs := by
  have inRange : (decide (c = 0) || decide (u + roughSize c < -400)) = false := by
    rw [Bool.or_eq_false_iff, decide_eq_false_iff_not, decide_eq_false_iff_not]
    omega
  unfold ofDecimal
  dsimp only
  rw [inRange, if_neg Bool.false_ne_true, if_neg (not_lt.2 high)]

/-- **A decimal that rounds to a number is read as this number**, with its sign. -/
theorem ofDecimal_eq {x : Float} {s : Sign} {m : ℕ} {e : ℤ} {hm : 0 < m}
    (hx : x.toModel.unpack = .finite s m e hm) {c : ℕ} {u : ℤ} (hc : 0 < c) (few : c < 2 ^ 64)
    (low : -380 ≤ u) (high : u ≤ 380) (near : roundMagnitude (c * 10 ^ u) = m * 2 ^ e) :
    ofDecimal (isNegative s) c u = x := by
  have size := roughSize_le hc few
  have fits : Fits (.finite .positive m e hm) := by
    have fits := fits_unpack x
    rw [hx] at fits
    exact fits.withSign .positive
  have gives := ofScientific_gives_zpow hc (by omega : u.natAbs ≤ 2048)
  have positive : (0 : ℝ) ≤ c * 10 ^ u := mul_nonneg (Nat.cast_nonneg c) (zpow_nonneg (by norm_num) u)
  have same : nearest (c * 10 ^ u) = m * 2 ^ e := by
    have kept := nearest_of_fits fits
    have fixed : rounded (m * 2 ^ e) = m * 2 ^ e := rounded_of_canonical fits.canonical
    rw [nearest, rounded_of_nonneg positive, near]
    rwa [nearest, fixed] at kept
  have unpacked := unpack_of_value fits gives.number (gives.value.trans same)
  rw [ofDecimal_of_size _ hc (by omega) (by omega)]
  cases s with
  | negative => exact eq_of_unpack (unpack_neg unpacked) hx
  | positive => exact eq_of_unpack unpacked hx

end FleetMatch.Decimal
