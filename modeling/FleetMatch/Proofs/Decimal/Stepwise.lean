import FleetMatch.Decimal.Stepwise
import FleetMatch.Proofs.Decimal.Digits
import FleetMatch.Proofs.Decimal.Reading

/-!
# Short decimals are read correctly in steps

A decimal whose significand fits 53 bits, and whose power of ten is exact, loses nothing before the one
multiplication or division.  So it becomes the nearest binary64 number also in steps.  Longer decimals need
not: the significand is rounded first.

* `intake_of_lt` — a significand that fits 64 bits is taken in as a whole.
* `powerOfTen_eq` — the powers of ten that are exact.
* `scaled?_of_short` — a short significand is scaled with one operation.
* `stepwise?_of_short` — short decimals become the nearest binary64 number.
-/

set_option autoImplicit false

namespace FleetMatch

/-! ## Significands -/

namespace Numeral

theorem continued_cons (n : ℕ) (c : Char) (cs : List Char) :
    continued n (c :: cs) = continued (10 * n + digitValue c) cs := by
  rw [continued_eq_foldl, continued_eq_foldl, List.foldl_cons]

/-- A number that goes on with more digits gets no smaller. -/
theorem le_continued (n : ℕ) (cs : List Char) : n ≤ continued n cs := by
  induction cs generalizing n with
  | nil =>
    rw [continued_eq_foldl]
    exact le_rfl
  | cons c cs ih =>
    rw [continued_cons]
    have more := ih (10 * n + digitValue c)
    omega

theorem continued_append (n : ℕ) (cs ds : List Char) :
    continued n (cs ++ ds) = continued (continued n cs) ds := by
  rw [continued_eq_foldl, continued_eq_foldl, continued_eq_foldl, List.foldl_append]

end Numeral

namespace Decimal

open Float.Model Float.Model.UnpackedFloat Scalar

/-- A significand that fits 64 bits is taken in as a whole. -/
theorem intake_of_lt {n : ℕ} {cs : List Char} (room : Numeral.continued n cs < UInt64.size) :
    intake n cs = (Numeral.continued n cs, []) := by
  induction cs generalizing n with
  | nil =>
    rw [Numeral.continued_eq_foldl]
    rfl
  | cons c cs ih =>
    rw [Numeral.continued_cons] at room ⊢
    have next := (Numeral.le_continued _ cs).trans_lt room
    rw [intake, if_pos next, ih room]

/-! ## Powers of ten -/

theorem powerOfTen_eq {k : ℕ} (few : k ≤ 22) : powerOfTen k = exactPower k few := by
  have all : ∀ k : Fin 23, powerOfTen k = exactPower k (Nat.le_of_lt_succ k.isLt) := by decide +kernel
  exact all ⟨k, Nat.lt_succ_of_le few⟩

/-- Zero stays zero at any power of ten at hand. -/
theorem scaled?_zero {e : ℤ} (low : -22 ≤ e) (high : e ≤ 22) : scaled? (0 : ℕ).toUInt64.toFloat e = some 0.0 := by
  have all : ∀ k : Fin 45, scaled? (0 : ℕ).toUInt64.toFloat ((k : ℤ) - 22) = some 0.0 := by decide +kernel
  have here := all ⟨(e + 22).toNat, by omega⟩
  have same : ((e + 22).toNat : ℤ) - 22 = e := by omega
  rwa [same] at here

/-- What is given for less than `2 ^ 1024` is finite. -/
theorem isFinite_of_gives {z : Float} {x : ℝ} (gives : Gives z x) (nonneg : 0 ≤ x) {n : ℕ} (small : n < 1024)
    (below : x ≤ 2 ^ n) : z.isFinite = true := by
  rw [isFinite_iff_value gives.number (gives.value ▸ nearest_nonneg nonneg), gives.value]
  calc nearest x
    _ ≤ nearest (2 ^ n) := nearest_mono below
    _ = 2 ^ n := nearest_two_pow small.le
    _ < 2 ^ 1024 := pow_lt_pow_right₀ (by norm_num) small

/-- A short decimal is finite. -/
theorem isFinite_ofScientific {m : ℕ} (hm : 0 < m) (small : m < 2 ^ 53) {e : ℤ} (low : -22 ≤ e) (high : e ≤ 22) :
    (Float.ofScientific m (decide (e < 0)) e.natAbs).isFinite = true := by
  have gives := ofScientific_gives_zpow hm (by omega : e.natAbs ≤ 2048)
  have significand : (m : ℝ) ≤ 2 ^ 53 := by exact_mod_cast small.le
  have power : (10 : ℝ) ^ e ≤ 2 ^ 74 :=
    calc (10 : ℝ) ^ e
      _ ≤ 10 ^ (22 : ℤ) := zpow_le_zpow_right₀ (by norm_num) high
      _ ≤ 2 ^ 74 := by norm_num
  have nonneg : (0 : ℝ) ≤ 10 ^ e := zpow_nonneg (by norm_num) e
  have below : (m : ℝ) * 10 ^ e ≤ 2 ^ 127 :=
    calc (m : ℝ) * 10 ^ e
      _ ≤ 2 ^ 53 * 2 ^ 74 := mul_le_mul significand power nonneg (by norm_num)
      _ = 2 ^ 127 := by norm_num
  exact isFinite_of_gives gives (mul_nonneg (Nat.cast_nonneg m) nonneg) (by decide) below

/-- A short significand is scaled with one operation, as a correct reader does it. -/
theorem scaled?_of_short {m : ℕ} (hm : 0 < m) (small : m < 2 ^ 53) {e : ℤ} (low : -22 ≤ e) (high : e ≤ 22) :
    scaled? m.toUInt64.toFloat e = some (Float.ofScientific m (decide (e < 0)) e.natAbs) := by
  have finite := isFinite_ofScientific hm small low high
  cases e with
  | ofNat k =>
    have few : k ≤ 22 := Int.ofNat_le.1 high
    have product : Float.ofScientific m (decide (Int.ofNat k < 0)) (Int.ofNat k).natAbs =
        m.toUInt64.toFloat * powerOfTen k := by
      rw [powerOfTen_eq few]
      exact ofScientific_of_short small few false
    rw [product] at finite ⊢
    rw [scaled?, if_pos (by omega)]
    exact if_pos finite
  | negSucc k =>
    have few : k + 1 ≤ 22 := by omega
    have quotient : Float.ofScientific m (decide (Int.negSucc k < 0)) (Int.negSucc k).natAbs =
        m.toUInt64.toFloat / powerOfTen (k + 1) := by
      rw [powerOfTen_eq few, decide_eq_true (Int.negSucc_lt_zero k)]
      exact ofScientific_of_short small few true
    rw [quotient, scaled?, Nat.div_eq_of_lt (by omega), Nat.mod_eq_of_lt (by omega), shrunk]

/-- **A short decimal becomes the nearest binary64 number**, also in steps. -/
theorem stepwise?_of_short (negative : Bool) {whole fraction : List Char} {e : ℤ}
    (small : Numeral.value (whole ++ fraction) < 2 ^ 53) (low : -22 ≤ e - fraction.length)
    (high : e - fraction.length ≤ 22) : stepwise? negative whole fraction e =
      some (ofDecimal negative (Numeral.value (whole ++ fraction)) (e - fraction.length)) := by
  have value : Numeral.continued (Numeral.value whole) fraction = Numeral.value (whole ++ fraction) :=
    (Numeral.continued_append 0 whole fraction).symm
  have room : Numeral.value (whole ++ fraction) < UInt64.size := small.trans (by decide)
  have start : intake 0 whole = (Numeral.value whole, []) :=
    intake_of_lt (((Numeral.le_continued _ fraction).trans_eq value).trans_lt room)
  have rest : intake (Numeral.value whole) fraction = (Numeral.value (whole ++ fraction), []) := by
    rw [← value] at room ⊢
    exact intake_of_lt room
  have places : e + (([] : List Char).length - fraction.length + ([] : List Char).length) =
      e - fraction.length := by
    rw [List.length_nil]
    omega
  rw [stepwise?, start]
  dsimp only
  rw [rest]
  dsimp only
  rw [places]
  generalize Numeral.value (whole ++ fraction) = m at small
  generalize e - (fraction.length : ℤ) = u at low high
  rcases Nat.eq_zero_or_pos m with rfl | pos
  · rw [scaled?_zero low high]
    rfl
  · have size := roughSize_le pos (small.trans (by decide))
    rw [scaled?_of_short pos small low high, ofDecimal_of_size negative pos (by omega) (by omega)]
    rfl

/-- A short decimal stays finite, with either sign. -/
theorem isFinite_ofDecimal_of_short (negative : Bool) {m : ℕ} (small : m < 2 ^ 53) {e : ℤ} (low : -22 ≤ e)
    (high : e ≤ 22) : (ofDecimal negative m e).isFinite = true := by
  rcases Nat.eq_zero_or_pos m with rfl | pos
  · have zero : ofDecimal negative 0 e = if negative then -0.0 else 0.0 := rfl
    rw [zero]
    cases negative <;> decide +kernel
  · have size := roughSize_le pos (small.trans (by decide))
    have finite := isFinite_ofScientific pos small low high
    rw [ofDecimal_of_size negative pos (by omega) (by omega)]
    cases negative with
    | true => exact isFinite_neg finite
    | false => exact finite

/-- A significand of sixteen digits may be too long. -/
example : stepwise? false "94".toList "95886283158103".toList 0 = some 94.95886283158104 := by
  decide +kernel

end Decimal

end FleetMatch
