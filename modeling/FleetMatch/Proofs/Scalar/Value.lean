import FleetMatch.Proofs.Scalar.Arithmetic

/-!
# The value of a binary64 number

A binary64 number is 64 bits, and arithmetic goes through unpacked numbers.  Unpacking what was packed
gives the number back, up to overflow, so each binary64 number has one real value, and comparing numbers
is comparing values.

* `ofFields`: the unpacked number that three fields of bits stand for; `unpack_eq`,
  `unpack_packComponents` — unpacking reads the fields that packing has written.
* `unpack_pack` — packing keeps canonical numbers, and makes infinities of those that are too large.
* `Fits`, `fits_unpack` — what 64 bits hold.
* `compare_unpacked_value`, `le_iff_value`, `rankLE_iff_value` — numbers are compared by their values.
-/

set_option autoImplicit false

namespace FleetMatch.Scalar

open Float.Model Float.Model.UnpackedFloat

/-! ## Fields -/

/-- The number with a sign, an exponent and a mantissa as 64 bits hold them. -/
def ofFields (s : Sign) (exponent : BitVec 11) (mantissa : BitVec 52) : UnpackedFloat :=
  if exponent = -1#11 then if mantissa = 0#52 then .infinity s else .notANumber
  else if exponent = 0#11 then
    if h : mantissa = 0#52 then .zero s
    else .finite s mantissa.toNat (-1074) (BitVec.toNat_pos_of_ne_zero h)
  else .finite s (2 ^ 52 + mantissa.toNat) (exponent.toNat - 1075) (by omega)

section

variable (s : Sign) {exponent : BitVec 11} {mantissa : BitVec 52}

theorem ofFields_normal (mantissa : BitVec 52) (high : exponent ≠ -1#11) (low : exponent ≠ 0#11) :
    ofFields s exponent mantissa =
      .finite s (2 ^ 52 + mantissa.toNat) (exponent.toNat - 1075) (by omega) := by
  rw [ofFields, if_neg high, if_neg low]

theorem ofFields_subnormal (digits : mantissa ≠ 0#52) :
    ofFields s 0#11 mantissa =
      .finite s mantissa.toNat (-1074) (BitVec.toNat_pos_of_ne_zero digits) := by
  rw [ofFields, if_neg (by decide), if_pos rfl, dif_neg digits]

end

theorem toNat_one_append (mantissa : BitVec 52) :
    (1#1 ++ mantissa).toNat = 2 ^ 52 + mantissa.toNat := by
  rw [BitVec.toNat_append, ← Nat.shiftLeft_add_eq_or_of_lt mantissa.isLt]
  rfl

theorem unpack_eq (bits : BitVec 64) : UnpackedFloat.unpack .binary64 bits =
    ofFields (.ofBitVec (@unpackSign .binary64 bits)) (@unpackExponent .binary64 bits)
      (@unpackMantissa .binary64 bits) := by
  unfold UnpackedFloat.unpack ofFields
  dsimp only
  by_cases ones : @unpackExponent .binary64 bits = -1#11
  · rw [if_pos ones, if_pos ones]
  · rw [if_neg ones, if_neg ones]
    by_cases least : @unpackExponent .binary64 bits = 0#11
    · rw [if_pos least, if_pos least]
      by_cases digits : @unpackMantissa .binary64 bits = 0#52
      · rw [dif_pos digits, dif_pos digits]
      · rw [dif_neg digits, dif_neg digits, UnpackedFloat.finite.injEq, least]
        exact ⟨rfl, rfl, rfl⟩
    · rw [if_neg least, if_neg least, UnpackedFloat.finite.injEq]
      exact ⟨rfl, toNat_one_append _, rfl⟩

theorem unpackSign_packComponents {spec : Format} (s : Sign) (exponent : BitVec spec.exponentBits)
    (mantissa : BitVec spec.mantissaBitsWithoutImplicit) :
    unpackSign (packComponents spec s exponent mantissa) = s.toBitVec := by
  ext i hi
  have first : i = 0 := by omega
  subst first
  unfold unpackSign packComponents
  simp [BitVec.getLsbD_append, BitVec.getElem_append]

theorem unpack_packComponents (s : Sign) (exponent : BitVec 11) (mantissa : BitVec 52) :
    UnpackedFloat.unpack .binary64 (packComponents .binary64 s exponent mantissa) =
      ofFields s exponent mantissa := by
  have sign : Sign.ofBitVec s.toBitVec = s := by cases s <;> rfl
  rw [unpack_eq, unpackSign_packComponents, unpackExponent_packComponents,
    unpackMantissa_packComponents, sign]

/-! ## Packing -/

/-- What becomes of an unpacked number in 64 bits: it is an infinity if its exponent is too large. -/
def overflowed : UnpackedFloat → UnpackedFloat
  | .finite s m e hm => if 972 ≤ e then .infinity s else .finite s m e hm
  | u => u

theorem overflowed_finite (s : Sign) {m : ℕ} (e : ℤ) (hm : 0 < m) :
    overflowed (.finite s m e hm) = if 972 ≤ e then .infinity s else .finite s m e hm := rfl

theorem pack_finite (s : Sign) (m : ℕ) (e : ℤ) (hm : 0 < m) :
    UnpackedFloat.pack .binary64 (.finite s m e hm) =
      if 2048 ≤ (e + 1075).toNat + 1 then packedInfinity .binary64 s
      else if m.log2 + 1 = 53 then
        packComponents .binary64 s (BitVec.ofNat 11 (e + 1075).toNat) (BitVec.ofNat 52 m)
      else packComponents .binary64 s 0#11 (BitVec.ofNat 52 m) := by
  have bias : e + (Format.binary64.exponentBias : ℤ) + (52 : ℕ) = e + 1075 := by
    rw [show Format.binary64.exponentBias = 1023 from rfl]
    omega
  unfold UnpackedFloat.pack
  rw [bias]
  rfl

theorem unpack_packedInfinity (s : Sign) :
    UnpackedFloat.unpack .binary64 (packedInfinity .binary64 s) = .infinity s := by
  cases s <;> rfl

/-- A mantissa of 53 digits is kept without its first one, and the exponent as a positive number. -/
theorem ofFields_of_long (s : Sign) {m : ℕ} {e : ℤ} (hm : 0 < m) (first : 2 ^ 52 ≤ m)
    (short : m < 2 ^ 53) (least : -1074 ≤ e) (small : e < 972) :
    ofFields s (BitVec.ofNat 11 (e + 1075).toNat) (BitVec.ofNat 52 m) = .finite s m e hm := by
  have exponent : (BitVec.ofNat 11 (e + 1075).toNat).toNat = (e + 1075).toNat := by
    rw [BitVec.toNat_ofNat, Nat.mod_eq_of_lt (by omega)]
  have mantissa : (BitVec.ofNat 52 m).toNat = m - 2 ^ 52 := by
    rw [BitVec.toNat_ofNat]
    omega
  have low : BitVec.ofNat 11 (e + 1075).toNat ≠ 0#11 := by
    intro zero
    have value : (BitVec.ofNat 11 (e + 1075).toNat).toNat = 0 := congrArg BitVec.toNat zero
    omega
  have high : BitVec.ofNat 11 (e + 1075).toNat ≠ -1#11 := by
    intro ones
    have value : (BitVec.ofNat 11 (e + 1075).toNat).toNat = 2047 := congrArg BitVec.toNat ones
    omega
  rw [ofFields_normal s _ high low, UnpackedFloat.finite.injEq, exponent, mantissa]
  refine ⟨rfl, ?_, ?_⟩ <;> omega

theorem ofFields_of_short (s : Sign) {m : ℕ} (hm : 0 < m) (few : m < 2 ^ 52) :
    ofFields s 0#11 (BitVec.ofNat 52 m) = .finite s m (-1074) hm := by
  have mantissa : (BitVec.ofNat 52 m).toNat = m := by
    rw [BitVec.toNat_ofNat, Nat.mod_eq_of_lt few]
  have digits : BitVec.ofNat 52 m ≠ 0#52 := by
    intro zero
    have value : (BitVec.ofNat 52 m).toNat = 0 := congrArg BitVec.toNat zero
    omega
  rw [ofFields_subnormal s digits, UnpackedFloat.finite.injEq]
  exact ⟨rfl, mantissa, rfl⟩

/-- **Packing keeps canonical numbers**, up to overflow. -/
theorem unpack_pack {u : UnpackedFloat} (hu : Canonical u) :
    (Float.Model.pack u).unpack = overflowed u := by
  show UnpackedFloat.unpack .binary64 (UnpackedFloat.pack .binary64 u) = overflowed u
  rcases u with s | _ | s | ⟨s, m, e, hm⟩
  · cases s <;> rfl
  · rfl
  · cases s <;> rfl
  · obtain ⟨short, least, long⟩ := hu
    have digits : m.log2 < 53 := (Nat.log2_lt hm.ne').2 short
    rw [pack_finite, overflowed_finite]
    by_cases large : 972 ≤ e
    · rw [if_pos (by omega), if_pos large, unpack_packedInfinity]
    · rw [if_neg (by omega), if_neg large]
      by_cases normal : 52 ≤ m.log2
      · have first : 2 ^ 52 ≤ m := (Nat.le_log2 hm.ne').1 normal
        rw [if_pos (by omega), unpack_packComponents,
          ofFields_of_long s hm first short least (by omega)]
      · have few : m < 2 ^ 52 := (Nat.log2_lt hm.ne').1 (by omega)
        have lowest : e = -1074 := long.resolve_left (by omega)
        rw [if_neg (by omega), unpack_packComponents, ofFields_of_short s hm few,
          UnpackedFloat.finite.injEq]
        exact ⟨rfl, rfl, lowest.symm⟩

/-- A number that fits into 64 bits. -/
structure Fits (u : UnpackedFloat) : Prop where
  canonical : Canonical u
  inRange : overflowed u = u

theorem overflowed_of_lt {s : Sign} {m : ℕ} {e : ℤ} {hm : 0 < m} (small : e < 972) :
    overflowed (.finite s m e hm) = .finite s m e hm :=
  if_neg (not_le.2 small)

theorem ofFields_fits (s : Sign) (exponent : BitVec 11) (mantissa : BitVec 52) :
    Fits (ofFields s exponent mantissa) := by
  have few := mantissa.isLt
  have most := exponent.isLt
  by_cases ones : exponent = -1#11
  · rw [ofFields, if_pos ones]
    by_cases digits : mantissa = 0#52
    · rw [if_pos digits]
      exact ⟨trivial, rfl⟩
    · rw [if_neg digits]
      exact ⟨trivial, rfl⟩
  · by_cases least : exponent = 0#11
    · by_cases digits : mantissa = 0#52
      · rw [ofFields, if_neg ones, if_pos least, dif_pos digits]
        exact ⟨trivial, rfl⟩
      · rw [least, ofFields_subnormal s digits]
        refine ⟨⟨?_, ?_, ?_⟩, overflowed_of_lt ?_⟩ <;> omega
    · have low : exponent.toNat ≠ 0 := by
        intro zero
        exact least (BitVec.eq_of_toNat_eq zero)
      have high : exponent.toNat ≠ 2047 := by
        intro top
        exact ones (BitVec.eq_of_toNat_eq top)
      rw [ofFields_normal s mantissa ones least]
      refine ⟨⟨?_, ?_, ?_⟩, overflowed_of_lt ?_⟩ <;> omega

/-- **Every binary64 number fits into 64 bits.** -/
theorem fits_unpack (x : Float) : Fits x.toModel.unpack := by
  show Fits (UnpackedFloat.unpack .binary64 x.toModel.toBits.toBitVec)
  rw [unpack_eq]
  exact ofFields_fits _ _ _

/-! ## Order -/

theorem magnitude_pos {m : ℕ} (hm : 0 < m) (e : ℤ) : (0 : ℝ) < m * 2 ^ e :=
  mul_pos (by exact_mod_cast hm) (zpow_pos (by norm_num) e)

/-- A mantissa that is not too long stays below a power of two. -/
theorem magnitude_lt {m : ℕ} {e : ℤ} (short : m < 2 ^ 53) : (m * 2 ^ e : ℝ) < 2 ^ (e + 53) := by
  rw [add_comm, zpow_add₀ (by norm_num)]
  exact mul_lt_mul_of_pos_right (by exact_mod_cast short) (zpow_pos (by norm_num) e)

theorem le_magnitude {m : ℕ} {e : ℤ} (long : 2 ^ 52 ≤ m) : (2 : ℝ) ^ (e + 52) ≤ m * 2 ^ e := by
  rw [add_comm, zpow_add₀ (by norm_num)]
  exact mul_le_mul_of_nonneg_right (by exact_mod_cast long) (zpow_pos (by norm_num) e).le

variable {u v : UnpackedFloat}

/-- What fits is not so large that it overflows. -/
theorem Fits.exponent_lt {s : Sign} {m : ℕ} {e : ℤ} {hm : 0 < m} (h : Fits (.finite s m e hm)) :
    e < 972 := by
  by_contra large
  have inRange := h.inRange
  rw [overflowed_finite, if_pos (not_lt.1 large)] at inRange
  cases inRange

/-- What fits does so with any sign. -/
theorem Fits.withSign {s : Sign} {m : ℕ} {e : ℤ} {hm : 0 < m} (h : Fits (.finite s m e hm)) (s' : Sign) :
    Fits (.finite s' m e hm) :=
  ⟨h.canonical, overflowed_of_lt h.exponent_lt⟩

theorem Fits.magnitude_lt_limit {s : Sign} {m : ℕ} {e : ℤ} {hm : 0 < m}
    (h : Fits (.finite s m e hm)) : (m * 2 ^ e : ℝ) < limit := by
  have small := h.exponent_lt
  calc (m * 2 ^ e : ℝ)
    _ < 2 ^ (e + 53) := magnitude_lt h.canonical.1
    _ ≤ 2 ^ (1024 : ℤ) := zpow_le_zpow_right₀ (by norm_num) (by omega)

/-- **Magnitudes are ordered by their exponents, and then by their mantissas.** -/
theorem magnitude_lt_of_lex {s s' : Sign} {m m' : ℕ} {e e' : ℤ} {hm : 0 < m} {hm' : 0 < m'}
    (h : Canonical (.finite s m e hm)) (h' : Canonical (.finite s' m' e' hm'))
    (lex : (compare e e').then (compare m m') = .lt) : (m * 2 ^ e : ℝ) < m' * 2 ^ e' := by
  rcases Ordering.then_eq_lt.1 lex with exponents | ⟨exponents, mantissas⟩
  · have larger := Int.compare_eq_lt.1 exponents
    have long : 2 ^ 52 ≤ m' := by
      rcases h'.2.2 with long | least
      · exact long
      · have := h.2.1
        omega
    calc (m * 2 ^ e : ℝ)
      _ < 2 ^ (e + 53) := magnitude_lt h.1
      _ ≤ 2 ^ (e' + 52) := zpow_le_zpow_right₀ (by norm_num) (by omega)
      _ ≤ m' * 2 ^ e' := le_magnitude long
  · rw [← Int.compare_eq_eq.1 exponents]
    have fewer : (m : ℝ) < m' := by exact_mod_cast Nat.compare_eq_lt.1 mantissas
    exact mul_lt_mul_of_pos_right fewer (zpow_pos (by norm_num) e)

theorem abs_signed (s : Sign) (x : ℝ) : |signed s x| = |x| := by
  cases s with
  | negative => exact abs_neg x
  | positive => rfl

theorem Fits.abs_lt_limit (h : Fits u) (finite : u.isFinite = true) : |realValue u| < limit := by
  rcases u with _ | _ | s | ⟨s, m, e, hm⟩
  · cases finite
  · cases finite
  · show |(0 : ℝ)| < limit
    rw [abs_zero]
    exact limit_pos
  · show |signed s (m * 2 ^ e)| < limit
    rw [abs_signed, abs_of_pos (magnitude_pos hm e)]
    exact h.magnitude_lt_limit

theorem compare_magnitudes {s s' : Sign} {m m' : ℕ} {e e' : ℤ} {hm : 0 < m} {hm' : 0 < m'}
    (h : Canonical (.finite s m e hm)) (h' : Canonical (.finite s' m' e' hm')) :
    (compare e e').then (compare m m') = compare (m * 2 ^ e : ℝ) (m' * 2 ^ e') := by
  cases lex : (compare e e').then (compare m m') with
  | lt => exact (compare_lt_iff_lt.2 (magnitude_lt_of_lex h h' lex)).symm
  | eq =>
    obtain ⟨exponents, mantissas⟩ := Ordering.then_eq_eq.1 lex
    rw [Int.compare_eq_eq.1 exponents, Nat.compare_eq_eq.1 mantissas]
    exact (compare_eq_iff_eq.2 rfl).symm
  | gt =>
    have flipped : (compare e' e).then (compare m' m) = .lt := by
      rw [Std.OrientedOrd.eq_swap (a := e'), Std.OrientedOrd.eq_swap (a := m'), ← Ordering.swap_then,
        lex]
      rfl
    exact (compare_gt_iff_gt.2 (magnitude_lt_of_lex h' h flipped)).symm

theorem compare_opposites (x y : ℝ) : compare (-x) (-y) = (compare x y).swap := by
  rcases lt_trichotomy x y with less | rfl | greater
  · rw [compare_lt_iff_lt.2 less, compare_gt_iff_gt.2 (neg_lt_neg less)]
    rfl
  · rw [compare_eq_iff_eq.2 rfl, compare_eq_iff_eq.2 rfl]
    rfl
  · rw [compare_gt_iff_gt.2 greater, compare_lt_iff_lt.2 (neg_lt_neg greater)]
    rfl

/-- Finite numbers are compared by their values. -/
theorem compare_finite (hu : Canonical u) (hv : Canonical v) (fu : u.isFinite = true)
    (fv : v.isFinite = true) : u.compare v = some (compare (realValue u) (realValue v)) := by
  rcases u with _ | _ | s | ⟨s, m, e, hm⟩ <;> try cases fu
  · rcases v with _ | _ | s' | ⟨s', m', e', hm'⟩ <;> try cases fv
    · exact congrArg some (compare_eq_iff_eq.2 rfl).symm
    · have pos := magnitude_pos hm' e'
      cases s' with
      | negative => exact congrArg some (compare_gt_iff_gt.2 (neg_lt_zero.2 pos)).symm
      | positive => exact congrArg some (compare_lt_iff_lt.2 pos).symm
  · have pos := magnitude_pos hm e
    rcases v with _ | _ | s' | ⟨s', m', e', hm'⟩ <;> try cases fv
    · cases s with
      | negative => exact congrArg some (compare_lt_iff_lt.2 (neg_lt_zero.2 pos)).symm
      | positive => exact congrArg some (compare_gt_iff_gt.2 pos).symm
    · have pos' := magnitude_pos hm' e'
      have magnitudes := compare_magnitudes hu hv
      cases s <;> cases s'
      · show some ((compare e e').then (compare m m')).swap =
          some (compare (-(m * 2 ^ e) : ℝ) (-(m' * 2 ^ e')))
        rw [magnitudes, compare_opposites]
      · exact congrArg some (compare_lt_iff_lt.2 ((neg_lt_zero.2 pos).trans pos')).symm
      · exact congrArg some (compare_gt_iff_gt.2 ((neg_lt_zero.2 pos').trans pos)).symm
      · exact congrArg some magnitudes

/-- Finite numbers stand between the infinities. -/
theorem compare_infinity (hu : Fits u) (fu : u.isFinite = true) (s : Sign) :
    u.compare (.infinity s) = some (compare (realValue u) (realValue (.infinity s))) ∧
      (infinity s).compare u = some (compare (realValue (.infinity s)) (realValue u)) := by
  obtain ⟨above, below⟩ := abs_lt.1 (hu.abs_lt_limit fu)
  cases s with
  | negative =>
    have above : realValue (.infinity .negative) < realValue u := above
    rw [compare_gt_iff_gt.2 above, compare_lt_iff_lt.2 above]
    rcases u with _ | _ | _ | ⟨_ | _, _, _, _⟩ <;> first | exact ⟨rfl, rfl⟩ | cases fu
  | positive =>
    have below : realValue u < realValue (.infinity .positive) := below
    rw [compare_lt_iff_lt.2 below, compare_gt_iff_gt.2 below]
    rcases u with _ | _ | _ | ⟨_ | _, _, _, _⟩ <;> first | exact ⟨rfl, rfl⟩ | cases fu

theorem eq_infinity_of_not_isFinite (nu : u.isNaN = false) (fu : u.isFinite = false) :
    ∃ s, u = .infinity s := by
  rcases u with s | _ | _ | _
  · exact ⟨s, rfl⟩
  · cases nu
  · cases fu
  · cases fu

/-- **Numbers are compared by their values.** -/
theorem compare_unpacked_value (hu : Fits u) (hv : Fits v) (nu : u.isNaN = false)
    (nv : v.isNaN = false) : u.compare v = some (compare (realValue u) (realValue v)) := by
  cases fu : u.isFinite with
  | true =>
    cases fv : v.isFinite with
    | true => exact compare_finite hu.canonical hv.canonical fu fv
    | false =>
      obtain ⟨s, rfl⟩ := eq_infinity_of_not_isFinite nv fv
      exact (compare_infinity hu fu s).1
  | false =>
    obtain ⟨s, rfl⟩ := eq_infinity_of_not_isFinite nu fu
    cases fv : v.isFinite with
    | true => exact (compare_infinity hv fv s).2
    | false =>
      obtain ⟨s', rfl⟩ := eq_infinity_of_not_isFinite nv fv
      have order : -limit < limit := neg_lt_self limit_pos
      cases s <;> cases s'
      · exact congrArg some (compare_eq_iff_eq.2 rfl).symm
      · exact congrArg some (compare_lt_iff_lt.2 order).symm
      · exact congrArg some (compare_gt_iff_gt.2 order).symm
      · exact congrArg some (compare_eq_iff_eq.2 rfl).symm

/-- The real number that a binary64 number is. -/
noncomputable def value (x : Float) : ℝ := realValue x.toModel.unpack

theorem le_iff_value {x y : Float} (hx : x.isNaN = false) (hy : y.isNaN = false) :
    x ≤ y ↔ value x ≤ value y := by
  rw [le_iff_compare, compare_unpacked_value (fits_unpack x) (fits_unpack y) hx hy, Option.any_some,
    ← Ordering.ne_gt_iff_isLE]
  exact compare_le_iff_le

theorem rankLE_iff_value {x y : Float} (hx : x.isNaN = false) (hy : y.isNaN = false) :
    rankLE x y = true ↔ value x ≤ value y := by
  rw [rankLE, hy, Bool.false_or, decide_eq_true_eq, le_iff_value hx hy]

end FleetMatch.Scalar
