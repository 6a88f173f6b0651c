import FleetMatch.Proofs.Scalar.Operations
import FleetMatch.Scalar.Parts

/-!
# Fields of bits

The three fields of a binary64 number can be read off its bits with quotients and remainders.  So a finite
number is told by what it is unpacked to, and its parts are those of the unpacked number.

* `toNat_unpackMantissa`, `toNat_unpackExponent`, `toNat_unpackSign` — the fields as natural numbers.
* `ofFloat_of_unpack`, `ofFloat_injective` — the parts of a finite number are what it is unpacked to, and
  tell the number.
* `unpack_of_value` — a magnitude has one canonical form.
-/

set_option autoImplicit false

namespace FleetMatch.Scalar

open Float.Model Float.Model.UnpackedFloat

section

variable (bits : BitVec 64)

theorem toNat_unpackMantissa : (@unpackMantissa .binary64 bits).toNat = bits.toNat % 2 ^ 52 := by
  show (bits.extractLsb 51 0).toNat = _
  rw [BitVec.extractLsb_toNat]
  rfl

theorem toNat_unpackExponent :
    (@unpackExponent .binary64 bits).toNat = bits.toNat / 2 ^ 52 % 2 ^ 11 := by
  show (bits.extractLsb 62 52).toNat = _
  rw [BitVec.extractLsb_toNat, Nat.shiftRight_eq_div_pow]

theorem toNat_unpackSign : (@unpackSign .binary64 bits).toNat = bits.toNat / 2 ^ 63 := by
  show (bits.extractLsb 63 63).toNat = _
  rw [BitVec.extractLsb_toNat, Nat.shiftRight_eq_div_pow]
  have := bits.isLt
  omega

end

/-! ## What the fields are, told from the unpacked number -/

section

variable {s s' : Sign} {exponent : BitVec 11} {mantissa : BitVec 52}

theorem ofFields_special (ones : exponent = -1#11) : (ofFields s exponent mantissa).isFinite = false := by
  rw [ofFields, if_pos ones]
  by_cases digits : mantissa = 0#52
  · rw [if_pos digits]
    rfl
  · rw [if_neg digits]
    rfl

theorem ofFields_zero (s : Sign) : ofFields s 0#11 0#52 = .zero s := by
  rw [ofFields, if_neg (by decide), if_pos rfl, dif_pos rfl]

theorem fields_of_finite {m : ℕ} {e : ℤ} {hm : 0 < m}
    (h : ofFields s exponent mantissa = .finite s' m e hm) :
    s = s' ∧ (exponent.toNat = 0 ∧ mantissa.toNat = m ∧ e = -1074 ∨
      exponent.toNat ≠ 0 ∧ 2 ^ 52 + mantissa.toNat = m ∧ (exponent.toNat : ℤ) - 1075 = e) := by
  by_cases ones : exponent = -1#11
  · have special := @ofFields_special s _ mantissa ones
    rw [h] at special
    cases special
  · by_cases least : exponent = 0#11
    · subst least
      by_cases digits : mantissa = 0#52
      · subst digits
        rw [ofFields_zero] at h
        cases h
      · rw [ofFields_subnormal s digits, UnpackedFloat.finite.injEq] at h
        exact ⟨h.1, .inl ⟨rfl, h.2.1, h.2.2.symm⟩⟩
    · rw [ofFields_normal s mantissa ones least, UnpackedFloat.finite.injEq] at h
      refine ⟨h.1, .inr ⟨?_, h.2⟩⟩
      intro zero
      exact least (BitVec.eq_of_toNat_eq zero)

theorem fields_of_zero (h : ofFields s exponent mantissa = .zero s') :
    s = s' ∧ exponent.toNat = 0 ∧ mantissa.toNat = 0 := by
  by_cases ones : exponent = -1#11
  · have special := @ofFields_special s _ mantissa ones
    rw [h] at special
    cases special
  · by_cases least : exponent = 0#11
    · subst least
      by_cases digits : mantissa = 0#52
      · subst digits
        rw [ofFields_zero] at h
        cases h
        exact ⟨rfl, rfl, rfl⟩
      · rw [ofFields_subnormal s digits] at h
        cases h
    · rw [ofFields_normal s mantissa ones least] at h
      cases h

end

/-- The sign of a negative number. -/
def isNegative : Sign → Bool
  | .negative => true
  | .positive => false

/-- The first bit is the sign. -/
theorem isNegative_unpackSign (bits : BitVec 64) :
    isNegative (.ofBitVec (@unpackSign .binary64 bits)) = decide (2 ^ 63 ≤ bits.toNat) := by
  have sign := toNat_unpackSign bits
  have bound := bits.isLt
  unfold Sign.ofBitVec
  split
  · rename_i zero
    rw [zero] at sign
    have small : 0 = bits.toNat / 2 ^ 63 := sign
    exact (decide_eq_false (by omega)).symm
  · rename_i one
    have large : (@unpackSign .binary64 bits).toNat ≠ 0 := fun zero => one (BitVec.eq_of_toNat_eq zero)
    exact (decide_eq_true (by omega)).symm

/-! ## Parts -/

variable {x y : Float} {s : Sign}

theorem unpack_toBits (x : Float) : ∃ s exponent mantissa,
    x.toModel.unpack = ofFields s exponent mantissa ∧
      isNegative s = decide (2 ^ 63 ≤ x.toBits.toNat) ∧
      exponent.toNat = x.toBits.toNat / 2 ^ 52 % 2 ^ 11 ∧ mantissa.toNat = x.toBits.toNat % 2 ^ 52 :=
  ⟨_, _, _, unpack_eq x.toModel.toBits.toBitVec, isNegative_unpackSign _, toNat_unpackExponent _,
    toNat_unpackMantissa _⟩

/-- **The parts of a number are what it is unpacked to.** -/
theorem ofFloat_of_unpack {m : ℕ} {e : ℤ} {hm : 0 < m} (h : x.toModel.unpack = .finite s m e hm) :
    Parts.ofFloat x = ⟨isNegative s, m, e⟩ := by
  obtain ⟨s', exponent, mantissa, unpacked, sign, he, hmant⟩ := unpack_toBits x
  obtain ⟨rfl, fields⟩ := fields_of_finite (unpacked.symm.trans h)
  unfold Parts.ofFloat
  rcases fields with ⟨zero, rfl, rfl⟩ | ⟨normal, rfl, rfl⟩
  · rw [if_pos (by omega), Parts.mk.injEq]
    exact ⟨sign.symm, hmant.symm, rfl⟩
  · rw [if_neg (by omega), Parts.mk.injEq, he, hmant, Nat.add_comm]
    exact ⟨sign.symm, rfl, rfl⟩

/-- A zero has no mantissa. -/
theorem ofFloat_of_zero (h : x.toModel.unpack = .zero s) :
    Parts.ofFloat x = ⟨isNegative s, 0, -1074⟩ := by
  obtain ⟨s', exponent, mantissa, unpacked, sign, he, hmant⟩ := unpack_toBits x
  obtain ⟨rfl, zero, digits⟩ := fields_of_zero (unpacked.symm.trans h)
  unfold Parts.ofFloat
  rw [if_pos (by omega), Parts.mk.injEq]
  exact ⟨sign.symm, hmant.symm.trans digits, rfl⟩

/-- A number is told by its parts. -/
theorem ofFloat_injective (h : Parts.ofFloat x = Parts.ofFloat y) : x = y := by
  have bits : x.toBits.toNat = y.toBits.toNat := by
    have xs := x.toBits.toNat_lt
    have ys := y.toBits.toNat_lt
    unfold Parts.ofFloat at h
    dsimp only at h
    split at h <;> split at h <;> rw [Parts.mk.injEq] at h <;> obtain ⟨sign, mantissa, exponent⟩ := h <;>
      rw [decide_eq_decide] at sign <;> omega
  obtain ⟨⟨xbits, xvalid⟩⟩ := x
  obtain ⟨⟨ybits, yvalid⟩⟩ := y
  obtain rfl : xbits = ybits := UInt64.toNat_inj.1 bits
  rfl

/-! ## Values -/

theorem eq_of_unpack {m : ℕ} {e : ℤ} {hm : 0 < m} (hx : x.toModel.unpack = .finite s m e hm)
    (hy : y.toModel.unpack = .finite s m e hm) : x = y :=
  ofFloat_injective ((ofFloat_of_unpack hx).trans (ofFloat_of_unpack hy).symm)

/-- A magnitude has one canonical form. -/
theorem canonical_unique {s' : Sign} {m m' : ℕ} {e e' : ℤ} {hm : 0 < m} {hm' : 0 < m'}
    (h : Canonical (.finite s m e hm)) (h' : Canonical (.finite s' m' e' hm'))
    (same : (m * 2 ^ e : ℝ) = m' * 2 ^ e') : m = m' ∧ e = e' := by
  have equal := compare_magnitudes h h'
  rw [compare_eq_iff_eq.2 same, Ordering.then_eq_eq] at equal
  exact ⟨Nat.compare_eq_eq.1 equal.2, Int.compare_eq_eq.1 equal.1⟩

/-- **A positive number is told by its value.** -/
theorem unpack_of_value {m : ℕ} {e : ℤ} {hm : 0 < m} (fits : Fits (.finite .positive m e hm))
    (number : x.isNaN = false) (same : value x = m * 2 ^ e) :
    x.toModel.unpack = .finite .positive m e hm := by
  have pos := magnitude_pos hm e
  have small := fits.magnitude_lt_limit
  have canonical := (fits_unpack x).canonical
  have number : x.toModel.unpack.isNaN = false := number
  rw [value] at same
  generalize x.toModel.unpack = u at canonical number same
  rcases u with ⟨_ | _⟩ | _ | _ | ⟨_ | _, m', e', hm'⟩
  · have : -limit = m * 2 ^ e := same
    linarith
  · have : limit = m * 2 ^ e := same
    linarith
  · cases number
  · have : 0 = (m * 2 ^ e : ℝ) := same
    linarith
  · have : -(m' * 2 ^ e') = (m * 2 ^ e : ℝ) := same
    have := magnitude_pos hm' e'
    linarith
  · obtain ⟨rfl, rfl⟩ := canonical_unique canonical fits.canonical same
    rfl

/-- The opposite of a number. -/
theorem unpack_neg {m : ℕ} {e : ℤ} {hm : 0 < m} (h : x.toModel.unpack = .finite s m e hm) :
    (-x).toModel.unpack = .finite (-s) m e hm := by
  have fits := fits_unpack x
  rw [h] at fits
  have packs : -x = packed (.finite (-s) m e hm) := by
    show packed x.toModel.unpack.neg = _
    rw [h]
    rfl
  have opposite := fits.withSign (-s)
  rw [packs]
  exact (unpack_pack opposite.canonical).trans opposite.inRange

/-- The opposite of a finite number is finite. -/
theorem isFinite_neg (hx : x.isFinite = true) : (-x).isFinite = true := by
  have finite : x.toModel.unpack.isFinite = true := hx
  show (-x).toModel.unpack.isFinite = true
  cases unpacked : x.toModel.unpack with
  | infinity s => rw [unpacked] at finite; cases finite
  | notANumber => rw [unpacked] at finite; cases finite
  | zero s =>
    have packs : -x = packed (.zero (-s)) := by
      show packed x.toModel.unpack.neg = _
      rw [unpacked]
      rfl
    rw [packs]
    cases s <;> rfl
  | finite s m e hm =>
    rw [unpack_neg unpacked]
    rfl

end FleetMatch.Scalar
