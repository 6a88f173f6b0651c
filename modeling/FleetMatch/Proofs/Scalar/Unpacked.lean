import FleetMatch.Proofs.Scalar.Rounding

/-!
# Unpacked numbers

Arithmetic takes binary64 numbers apart, computes with mantissas and exponents, and rounds.  What has
been cut off a mantissa is kept in two bits, and this is enough to round correctly.

* `StandsFor`: a mantissa with its two bits stands for a real number.
* `realValue`: the real number that an unpacked number is; the infinities are the first numbers that are
  too large.
* `Canonical`: what rounding leaves behind, numbers with one way to write them.
* `roundWithAccuracy_rounds` — rounding a mantissa is rounding the number that it stands for.
* `round_rounds`, `normalize_rounds` — so is rounding after a change of the exponent.
-/

set_option autoImplicit false

namespace FleetMatch.Scalar

open Float.Model Float.Model.UnpackedFloat

/-! ## Digits that were cut off -/

/-- A mantissa stands for a number, up to what has been cut off: the first digit after the mantissa is
the round bit, and the sticky bit tells whether any other digit is not zero. -/
structure StandsFor (em : ExtendedMantissa) (t : ℝ) : Prop where
  low : em.mantissa ≤ t
  high : t < em.mantissa + 1
  round : em.roundBit = true ↔ em.mantissa + 1 / 2 ≤ t
  sticky : em.stickyBit = true ↔ t ≠ em.mantissa ∧ t ≠ em.mantissa + 1 / 2

namespace StandsFor

variable {em : ExtendedMantissa} {t : ℝ}

/-- Something was cut off. -/
theorem inexact (h : StandsFor em t) : (em.roundBit || em.stickyBit) = true ↔ t ≠ em.mantissa := by
  rw [Bool.or_eq_true, h.round, h.sticky]
  constructor
  · rintro (half | ⟨apart, -⟩)
    · intro whole
      linarith
    · exact apart
  · intro apart
    by_cases half : t = em.mantissa + 1 / 2
    · exact .inl half.ge
    · exact .inr ⟨apart, half⟩

/-- **Cutting one more digit off.** -/
theorem shiftRightOne (h : StandsFor em t) : StandsFor em.shiftRightOne (t / 2) := by
  have low := h.low
  have high := h.high
  have split : (em.mantissa : ℝ) = 2 * (em.mantissa / 2 : ℕ) + (em.mantissa % 2 : ℕ) := by
    exact_mod_cast (Nat.div_add_mod em.mantissa 2).symm
  have below : ((em.mantissa / 2 : ℕ) : ℝ) ≤ t / 2 := by
    have : (0 : ℝ) ≤ (em.mantissa % 2 : ℕ) := Nat.cast_nonneg _
    linarith
  have above : t / 2 < ((em.mantissa / 2 : ℕ) : ℝ) + 1 := by
    have : ((em.mantissa % 2 : ℕ) : ℝ) ≤ 1 := by
      exact_mod_cast Nat.le_of_lt_succ (Nat.mod_lt em.mantissa (by decide))
    linarith
  refine ⟨below, above, ?_, ?_⟩
  · show (em.mantissa % 2 != 0) = true ↔ ((em.mantissa / 2 : ℕ) : ℝ) + 1 / 2 ≤ t / 2
    rcases Nat.mod_two_eq_zero_or_one em.mantissa with digit | digit
    · rw [digit, Nat.cast_zero] at split
      rw [digit]
      refine ⟨fun set => absurd set (by decide), ?_⟩
      intro half
      linarith
    · rw [digit, Nat.cast_one] at split
      rw [digit]
      refine ⟨?_, fun _ => rfl⟩
      intro _
      linarith
  · show (em.roundBit || em.stickyBit) = true ↔
      t / 2 ≠ ((em.mantissa / 2 : ℕ) : ℝ) ∧ t / 2 ≠ ((em.mantissa / 2 : ℕ) : ℝ) + 1 / 2
    rw [h.inexact]
    rcases Nat.mod_two_eq_zero_or_one em.mantissa with digit | digit
    · rw [digit, Nat.cast_zero] at split
      constructor
      · intro apart
        exact ⟨fun whole => apart (by linarith), fun half => by linarith⟩
      · intro apart whole
        exact apart.1 (by linarith)
    · rw [digit, Nat.cast_one] at split
      constructor
      · intro apart
        exact ⟨fun whole => by linarith, fun half => apart (by linarith)⟩
      · intro apart whole
        exact apart.2 (by linarith)

theorem shiftRight (h : StandsFor em t) (n : ℕ) : StandsFor (em >>> n) (t / 2 ^ n) := by
  show StandsFor (n.repeat ExtendedMantissa.shiftRightOne em) (t / 2 ^ n)
  induction n with
  | zero => simpa [Nat.repeat] using h
  | succ n ih =>
    have next := ih.shiftRightOne
    rwa [div_div, ← pow_succ] at next

/-- **The two bits are enough to round.** -/
theorem roundedMantissa (h : StandsFor em t) : (em.roundedMantissa : ℤ) = halfEven t := by
  have low := h.low
  have high := h.high
  have floor : ⌊t⌋ = (em.mantissa : ℤ) := Int.floor_eq_iff.2 ⟨by exact_mod_cast low, by exact_mod_cast high⟩
  have fract : Int.fract t = t - em.mantissa := by rw [Int.fract, floor, Int.cast_natCast]
  have round := h.round
  have sticky := h.sticky
  rw [halfEven, fract, floor]
  obtain ⟨m, r, s⟩ := em
  cases r with
  | false =>
    have less : t - m < 1 / 2 := by
      by_contra more
      exact Bool.false_ne_true (round.2 (by linarith))
    rw [if_pos less]
    cases s <;> rfl
  | true =>
    have more : (m : ℝ) + 1 / 2 ≤ t := round.1 rfl
    rw [if_neg (by linarith)]
    cases s with
    | false =>
      have half : t = m + 1 / 2 := by
        by_contra apart
        refine Bool.false_ne_true (sticky.2 ⟨?_, apart⟩)
        intro whole
        linarith
      rw [if_neg (by linarith)]
      rfl
    | true =>
      have apart := (sticky.1 rfl).2
      rw [if_pos (by linarith [lt_of_le_of_ne more apart.symm])]
      rfl

end StandsFor

/-! ## Values -/

/-- A number with a sign. -/
def signed (s : Sign) (x : ℝ) : ℝ :=
  match s with
  | .negative => -x
  | .positive => x

theorem rounded_signed (s : Sign) (x : ℝ) : rounded (signed s x) = signed s (rounded x) := by
  cases s with
  | negative => exact rounded_neg x
  | positive => rfl

/-- The real number that an unpacked number is.  The infinities are the first numbers that are too
large. -/
noncomputable def realValue : UnpackedFloat → ℝ
  | .infinity s => signed s limit
  | .notANumber => 0
  | .zero _ => 0
  | .finite s m e _ => signed s (magnitude m e)

/-- A number as rounding leaves it behind: it has 53 binary digits, or fewer with the least exponent. -/
def Canonical : UnpackedFloat → Prop
  | .finite _ m e _ => m < 2 ^ 53 ∧ -1074 ≤ e ∧ (2 ^ 52 ≤ m ∨ e = -1074)
  | _ => True

/-- An unpacked number is what rounding makes of a real number. -/
structure Rounds (u : UnpackedFloat) (x : ℝ) : Prop where
  value : realValue u = rounded x
  canonical : Canonical u
  finite : u.isFinite = true

theorem targetExponent_eq (m : ℕ) (e : ℤ) :
    Format.binary64.targetExponent (totalExponent m e) = max (m.log2 + e - 52) (-1074) := by
  show max ((m.log2 : ℤ) + 1 + e - 53) (-1074) = _
  omega

/-- Canonical numbers stay as they are. -/
theorem rounded_of_canonical {s : Sign} {m : ℕ} {e : ℤ} {hm : 0 < m}
    (h : Canonical (.finite s m e hm)) : rounded (signed s (m * 2 ^ e)) = signed s (m * 2 ^ e) := by
  obtain ⟨small, least, long⟩ := h
  have digits : m.log2 < 53 := (Nat.log2_lt hm.ne').2 small
  have unit : ulpExponent (m * 2 ^ e) = e := by
    rw [ulpExponent_natCast_mul hm]
    rcases long with long | rfl
    · have : 52 ≤ m.log2 := (Nat.le_log2 hm.ne').2 long
      omega
    · omega
  have nonneg : (0 : ℝ) ≤ m * 2 ^ e := mul_nonneg (Nat.cast_nonneg m) (zpow_pos (by norm_num) _).le
  rw [rounded_signed, rounded_of_nonneg nonneg, roundMagnitude_of_grid unit]

/-! ## Rounding -/

/-- How many digits of a mantissa are cut off. -/
def cut (m : ℕ) (e : ℤ) : ℕ := (max (m.log2 + e - 52) (-1074) - e).toNat

theorem shiftToTargetExponent_eq (m : ℕ) (e : ℤ) (accuracy : Accuracy) :
    shiftToTargetExponent .binary64 m e accuracy =
      (ExtendedMantissa.ofMantissaAndAccuracy m accuracy >>> cut m e, e + cut m e) := by
  simp only [shiftToTargetExponent, shiftToExponent, targetExponent_eq, cut]

/-- A mantissa that is short enough needs no more rounding. -/
theorem shiftToTargetExponent_of_lt {r : ℕ} {e : ℤ} (hr : r < 2 ^ 53) (he : -1074 ≤ e) :
    shiftToTargetExponent .binary64 r e .exact = (⟨r, false, false⟩, e) := by
  have digits : r.log2 < 53 := by
    by_cases hz : r = 0
    · rw [hz]
      decide
    · exact (Nat.log2_lt hz).2 hr
  have none : cut r e = 0 := by
    unfold cut
    omega
  rw [shiftToTargetExponent_eq, none, Nat.cast_zero, add_zero]
  rfl

/-- A mantissa that rounding has made too long is a power of two. -/
theorem shiftToTargetExponent_carry {e : ℤ} (he : -1074 ≤ e) :
    shiftToTargetExponent .binary64 (2 ^ 53) e .exact = (⟨2 ^ 52, false, false⟩, e + 1) := by
  have one : cut (2 ^ 53) e = 1 := by
    rw [cut, Nat.log2_two_pow]
    omega
  rw [shiftToTargetExponent_eq, one]
  rfl

/-- The number that is left when a rounded mantissa has been cut to its length. -/
theorem finish_rounds (s : Sign) {r : ℕ} {e : ℤ} {x : ℝ} (value : roundMagnitude x = r * 2 ^ e)
    (hx : 0 ≤ x) (short : r ≤ 2 ^ 53) (least : -1074 ≤ e) (long : 2 ^ 52 ≤ r ∨ e = -1074) :
    let final := shiftToTargetExponent .binary64 r e .exact
    Rounds (if h : final.1.mantissa = 0 then .zero s
      else .finite s final.1.mantissa final.2 (Nat.pos_of_ne_zero h)) (signed s x) := by
  have total : rounded (signed s x) = signed s (r * 2 ^ e) := by
    rw [rounded_signed, rounded_of_nonneg hx, value]
  rcases short.lt_or_eq with less | rfl
  · rw [shiftToTargetExponent_of_lt less least]
    by_cases none : r = 0
    · subst none
      refine ⟨?_, trivial, rfl⟩
      rw [total, Nat.cast_zero, zero_mul]
      cases s with
      | negative => exact neg_zero.symm
      | positive => rfl
    · show Rounds (if h : r = 0 then .zero s else .finite s r e (Nat.pos_of_ne_zero h)) (signed s x)
      rw [dif_neg none]
      exact ⟨total.symm, ⟨less, least, long⟩, rfl⟩
  · rw [shiftToTargetExponent_carry least]
    have digits : (2 ^ 52 : ℕ) < 2 ^ 53 := by decide
    refine ⟨?_, ⟨digits, by omega, .inl le_rfl⟩, rfl⟩
    rw [total]
    have carried : ((2 ^ 53 : ℕ) : ℝ) * 2 ^ e = (2 ^ 52 : ℕ) * 2 ^ (e + 1) := by
      rw [zpow_add₀ (by norm_num)]
      push_cast
      ring
    rw [carried]
    rfl

/-- **Rounding a mantissa is rounding the number that it stands for.** -/
theorem roundWithAccuracy_rounds (s : Sign) {m : ℕ} {e : ℤ} {accuracy : Accuracy} {x : ℝ}
    (hm : 0 < m) (he : e ≤ max (m.log2 + e - 52) (-1074))
    (stands : StandsFor (.ofMantissaAndAccuracy m accuracy) (x / 2 ^ e)) :
    Rounds (roundWithAccuracy .binary64 s m e accuracy) (signed s x) := by
  have pos : (0 : ℝ) < 2 ^ e := zpow_pos (by norm_num) _
  have mantissa : (ExtendedMantissa.ofMantissaAndAccuracy m accuracy).mantissa = m := by
    rcases accuracy with _ | (_ | _ | _) <;> rfl
  have low := stands.low
  have high := stands.high
  rw [mantissa] at low high
  rw [le_div_iff₀ pos] at low
  rw [div_lt_iff₀ pos] at high
  have hx : 0 < x := (mul_pos (by exact_mod_cast hm) pos).trans_le low
  have unit : ulpExponent x = e + cut m e := by
    rw [ulpExponent_of_mantissa hm low high, cut]
    omega
  have shifted := stands.shiftRight (cut m e)
  rw [div_div, ← zpow_natCast, ← zpow_add₀ (by norm_num), ← unit] at shifted
  have whole := shifted.roundedMantissa
  have value : roundMagnitude x =
      ((ExtendedMantissa.ofMantissaAndAccuracy m accuracy >>> cut m e).roundedMantissa : ℕ) *
        2 ^ (e + cut m e : ℤ) := by
    rw [roundMagnitude, ulp, ← whole, unit]
    norm_cast
  have normal := le_roundMagnitude hx
  have above := roundMagnitude_le x
  have least : -1074 ≤ ulpExponent x := le_max_right _ _
  unfold roundWithAccuracy
  rw [shiftToTargetExponent_eq m e accuracy]
  generalize ExtendedMantissa.ofMantissaAndAccuracy m accuracy >>> cut m e = em at value
  rw [unit, value] at normal
  rw [unit, value] at above
  rw [unit] at least
  generalize e + (cut m e : ℤ) = g at value normal above least
  have ulp : (0 : ℝ) < 2 ^ g := zpow_pos (by norm_num) _
  have short : em.roundedMantissa ≤ 2 ^ 53 := by
    rw [add_comm, zpow_add₀ (by norm_num)] at above
    exact_mod_cast le_of_mul_le_mul_right above ulp
  have long : 2 ^ 52 ≤ em.roundedMantissa ∨ g = -1074 := by
    rcases least.lt_or_eq with larger | same
    · have below := normal larger
      rw [add_comm, zpow_add₀ (by norm_num)] at below
      exact .inl (by exact_mod_cast le_of_mul_le_mul_right below ulp)
    · exact .inr same.symm
  exact finish_rounds s value hx.le short least long

/-- A mantissa that nothing was cut off stands for itself. -/
theorem standsFor_exact (m : ℕ) : StandsFor (.ofMantissaAndAccuracy m .exact) m := by
  constructor
  · exact le_rfl
  · show (m : ℝ) < m + 1
    linarith
  · show false = true ↔ (m : ℝ) + 1 / 2 ≤ m
    simp
  · show false = true ↔ (m : ℝ) ≠ m ∧ _
    simp

theorem roundWithAccuracy_exact_rounds (s : Sign) {m : ℕ} {e : ℤ} (hm : 0 < m)
    (he : e ≤ max (m.log2 + e - 52) (-1074)) :
    Rounds (roundWithAccuracy .binary64 s m e .exact) (signed s (m * 2 ^ e)) := by
  have pos : (0 : ℝ) < 2 ^ e := zpow_pos (by norm_num) _
  refine roundWithAccuracy_rounds s hm he ?_
  rw [mul_div_cancel_right₀ _ pos.ne']
  exact standsFor_exact m

/-- Lengthening a mantissa does not change the number. -/
theorem shiftLeft_mul_zpow (m k : ℕ) (e : ℤ) :
    ((m <<< k : ℕ) : ℝ) * 2 ^ (e - k) = m * 2 ^ e := by
  rw [Nat.shiftLeft_eq, Nat.cast_mul, Nat.cast_pow, Nat.cast_ofNat, mul_assoc, ← zpow_natCast,
    ← zpow_add₀ (by norm_num), add_sub_cancel]

theorem log2_shiftLeft {m : ℕ} (hm : 0 < m) (k : ℕ) : (m <<< k).log2 = m.log2 + k := by
  have hk : m <<< k ≠ 0 := by
    rw [Nat.shiftLeft_eq]
    exact (Nat.mul_pos hm (Nat.two_pow_pos k)).ne'
  have low := Nat.mul_le_mul_right (2 ^ k) (Nat.log2_self_le hm.ne')
  have high := Nat.mul_lt_mul_of_pos_right (@Nat.lt_log2_self m) (Nat.two_pow_pos k)
  rw [← pow_add] at low high
  refine le_antisymm ?_ ?_
  · rw [← Nat.lt_succ_iff, Nat.log2_lt hk, Nat.shiftLeft_eq]
    rwa [add_right_comm] at high
  · rw [Nat.le_log2 hk, Nat.shiftLeft_eq]
    exact low

/-- **Rounding any mantissa with an exponent**, also one that has to be lengthened first. -/
theorem round_rounds (s : Sign) {m : ℕ} (e : ℤ) (hm : 0 < m) :
    Rounds (UnpackedFloat.round .binary64 s m e) (signed s (m * 2 ^ e)) := by
  simp only [UnpackedFloat.round, decreaseExponent, targetExponent_eq]
  generalize hk : (e - max (m.log2 + e - 52) (-1074)).toNat = k
  have digits := log2_shiftLeft hm k
  have longer : 0 < m <<< k := by
    rw [Nat.shiftLeft_eq]
    exact Nat.mul_pos hm (Nat.two_pow_pos _)
  have rounds := roundWithAccuracy_exact_rounds s (e := e - k) longer (by omega)
  rwa [shiftLeft_mul_zpow] at rounds

/-- **Rounding any integer mantissa with an exponent.** -/
theorem normalize_rounds (m : ℤ) (e : ℤ) (s : Sign) :
    Rounds (UnpackedFloat.normalize .binary64 m e s) (m * 2 ^ e) := by
  unfold UnpackedFloat.normalize
  rcases lt_trichotomy m 0 with neg | rfl | pos
  · rw [Int.compare_eq_lt.2 neg]
    have rounds := round_rounds .negative e (by omega : 0 < (-m).toNat)
    have cast : (((-m).toNat : ℕ) : ℝ) = -m := by exact_mod_cast Int.toNat_of_nonneg (by omega : 0 ≤ -m)
    rwa [cast, signed, neg_mul, neg_neg] at rounds
  · refine ⟨?_, trivial, rfl⟩
    rw [Int.cast_zero, zero_mul, rounded_zero]
    rfl
  · rw [Int.compare_eq_gt.2 pos]
    have rounds := round_rounds .positive e (by omega : 0 < m.toNat)
    have cast : ((m.toNat : ℕ) : ℝ) = m := by exact_mod_cast Int.toNat_of_nonneg pos.le
    rwa [cast] at rounds

end FleetMatch.Scalar
