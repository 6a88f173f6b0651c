import FleetMatch.Proofs.Scalar.Fields

/-!
# The order of all bit patterns

The bits of a positive number, read as one natural number, grow with the number: the exponent stands before
the mantissa.  So the order of all bit patterns is that of numbers, except that it puts the negative zero
before the positive one.

* `magnitudeLevel`: the level of a positive number by its bits; `below_magnitudeLevel_iff` — it grows with
  them.
* `signedBits`: the bits of the magnitude with the sign; `lt_iff_signedBits` — numbers are compared by them.
* `totalKey_lt_iff`, `totalKey_inj` — the order by which a split compares coordinates.
-/

set_option autoImplicit false

namespace FleetMatch.Scalar

open Float.Model Float.Model.UnpackedFloat

/-! ## Levels -/

/-- The first level stands below the second. -/
def Below (p q : ℤ × ℤ × ℤ) : Prop :=
  p.1 < q.1 ∨ p.1 = q.1 ∧ (p.2.1 < q.2.1 ∨ p.2.1 = q.2.1 ∧ p.2.2 < q.2.2)

attribute [local instance] lexOrd

theorem compare_eq_lt_iff (p q : ℤ × ℤ × ℤ) : compare p q = .lt ↔ Below p q := by
  show (compare p.1 q.1).then ((compare p.2.1 q.2.1).then (compare p.2.2 q.2.2)) = .lt ↔ _
  simp only [Ordering.then_eq_lt, Int.compare_eq_lt, Int.compare_eq_eq, Below]

/-- The level of a number with the opposite sign. -/
def opposite (p : ℤ × ℤ × ℤ) : ℤ × ℤ × ℤ := (-p.1, -p.2.1, -p.2.2)

theorem below_opposite_iff (p q : ℤ × ℤ × ℤ) : Below (opposite p) (opposite q) ↔ Below q p := by
  simp only [Below, opposite]
  omega

/-- The bits of the positive infinity. -/
def infinityBits : ℕ := 0x7FF0000000000000

/-- The level of a positive number by its bits. -/
def magnitudeLevel (n : ℕ) : ℤ × ℤ × ℤ :=
  if n = infinityBits then (2, 0, 0)
  else if n = 0 then (0, 0, 0)
  else if n / 2 ^ 52 = 0 then (1, -1074, n)
  else (1, n / 2 ^ 52 - 1075, 2 ^ 52 + n % 2 ^ 52)

/-- **The level of a positive number grows with its bits.** -/
theorem below_magnitudeLevel_iff {m n : ℕ} (hm : m ≤ infinityBits) (hn : n ≤ infinityBits) :
    Below (magnitudeLevel m) (magnitudeLevel n) ↔ m < n := by
  unfold magnitudeLevel infinityBits at *
  split_ifs <;> simp only [Below, true_and] <;> omega

/-- No level of a positive number is negative, and only zero has that of zero. -/
theorem magnitudeLevel_cases (n : ℕ) :
    n = 0 ∧ magnitudeLevel n = (0, 0, 0) ∨ 0 < n ∧ 0 < (magnitudeLevel n).1 := by
  unfold magnitudeLevel infinityBits
  split_ifs with infinite zero subnormal
  · exact .inr ⟨by omega, by norm_num⟩
  · exact .inl ⟨zero, rfl⟩
  · exact .inr ⟨by omega, Int.one_pos⟩
  · exact .inr ⟨by omega, Int.one_pos⟩

/-- A level with its sign. -/
def signedLevel (negative : Bool) (n : ℕ) : ℤ × ℤ × ℤ :=
  if negative then opposite (magnitudeLevel n) else magnitudeLevel n

/-- **The level of a number grows with its bits** and their sign. -/
theorem below_signedLevel_iff {m n : ℕ} (hm : m ≤ infinityBits) (hn : n ≤ infinityBits) (a b : Bool) :
    Below (signedLevel a m) (signedLevel b n) ↔
      (if a then -(m : ℤ) else m) < (if b then -(n : ℤ) else n) := by
  have less := below_magnitudeLevel_iff hm hn
  have more := below_magnitudeLevel_iff hn hm
  unfold signedLevel
  cases a <;> cases b <;> simp only [if_true, if_false, Bool.false_eq_true, below_opposite_iff, less, more]
  -- With different signs it only matters which of the two are zero.
  case false.true | true.false =>
    rcases magnitudeLevel_cases m with ⟨rfl, left⟩ | ⟨left, left'⟩ <;>
      rcases magnitudeLevel_cases n with ⟨rfl, right⟩ | ⟨right, right'⟩ <;>
      simp only [Below, opposite, *] <;> omega
  all_goals omega

/-! ## Bits -/

theorem magnitudeLevel_zero : magnitudeLevel 0 = (0, 0, 0) := by
  rw [magnitudeLevel, infinityBits, if_neg (by decide), if_pos rfl]

theorem magnitudeLevel_infinity : magnitudeLevel infinityBits = (2, 0, 0) := by
  rw [magnitudeLevel, if_pos rfl]

theorem magnitudeLevel_subnormal {n : ℕ} (pos : 0 < n) (short : n < 2 ^ 52) :
    magnitudeLevel n = ((1 : ℤ), (-1074 : ℤ), (n : ℤ)) := by
  rw [magnitudeLevel, infinityBits, if_neg (by omega), if_neg (by omega), if_pos (by omega)]

theorem magnitudeLevel_normal {e m : ℕ} (low : 0 < e) (high : e < 2047) (short : m < 2 ^ 52) :
    magnitudeLevel (e * 2 ^ 52 + m) = ((1 : ℤ), (e : ℤ) - 1075, 2 ^ 52 + (m : ℤ)) := by
  have exponent : (e * 2 ^ 52 + m) / 2 ^ 52 = e := by omega
  have mantissa : (e * 2 ^ 52 + m) % 2 ^ 52 = m := by omega
  rw [magnitudeLevel, infinityBits, if_neg (by omega), if_neg (by omega), if_neg (by omega)]
  simp only [Prod.mk.injEq, true_and]
  omega

/-- **The level of a number is read off its fields.** -/
theorem level_ofFields (s : Sign) {exponent : BitVec 11} {mantissa : BitVec 52}
    (number : (ofFields s exponent mantissa).isNaN = false) :
    exponent.toNat * 2 ^ 52 + mantissa.toNat ≤ infinityBits ∧ level (ofFields s exponent mantissa) =
      signedLevel (isNegative s) (exponent.toNat * 2 ^ 52 + mantissa.toNat) := by
  have short := mantissa.isLt
  by_cases ones : exponent = -1#11
  · subst ones
    rw [ofFields, if_pos rfl] at number ⊢
    by_cases digits : mantissa = 0#52
    · subst digits
      have bits : (-1#11 : BitVec 11).toNat * 2 ^ 52 + (0#52).toNat = infinityBits := rfl
      rw [if_pos rfl, bits, signedLevel, magnitudeLevel_infinity]
      cases s <;> exact ⟨le_rfl, rfl⟩
    · rw [if_neg digits] at number
      cases number
  · have high : exponent.toNat < 2047 := by
      have bound := exponent.isLt
      have apart : exponent.toNat ≠ 2047 := fun same => ones (BitVec.eq_of_toNat_eq same)
      omega
    have bounded : exponent.toNat * 2 ^ 52 + mantissa.toNat ≤ infinityBits := by
      unfold infinityBits
      omega
    refine ⟨bounded, ?_⟩
    by_cases least : exponent = 0#11
    · subst least
      by_cases digits : mantissa = 0#52
      · subst digits
        have bits : (0#11).toNat * 2 ^ 52 + (0#52).toNat = 0 := rfl
        rw [ofFields_zero, bits, signedLevel, magnitudeLevel_zero]
        cases s <;> rfl
      · have pos := BitVec.toNat_pos_of_ne_zero digits
        have none : (0#11).toNat * 2 ^ 52 + mantissa.toNat = mantissa.toNat := by
          rw [BitVec.toNat_zero, Nat.zero_mul, Nat.zero_add]
        rw [ofFields_subnormal s digits, none, signedLevel, magnitudeLevel_subnormal pos short]
        cases s <;> rfl
    · have low : 0 < exponent.toNat := BitVec.toNat_pos_of_ne_zero least
      rw [ofFields_normal s mantissa ones least, signedLevel, magnitudeLevel_normal low high short]
      cases s <;> rfl

variable {x y : Float}

/-- The bits of the magnitude of a number. -/
def magnitudeBits (x : Float) : ℕ := x.toBits.toNat % 2 ^ 63

theorem magnitudeBits_lt (x : Float) : magnitudeBits x < 2 ^ 63 := Nat.mod_lt _ (by decide)

/-- The number has a minus in front, as the negative zero has. -/
def hasSign (x : Float) : Bool := decide (2 ^ 63 ≤ x.toBits.toNat)

/-- The rank of a number is read off its bits. -/
theorem rank_eq_signedLevel (number : x.isNaN = false) :
    magnitudeBits x ≤ infinityBits ∧ rank x = signedLevel (hasSign x) (magnitudeBits x) := by
  obtain ⟨s, exponent, mantissa, unpacked, sign, he, hm⟩ := unpack_toBits x
  have bits : exponent.toNat * 2 ^ 52 + mantissa.toNat = magnitudeBits x := by
    unfold magnitudeBits
    omega
  have fields : (ofFields s exponent mantissa).isNaN = false := unpacked ▸ number
  obtain ⟨bounded, level⟩ := level_ofFields s fields
  rw [bits, sign] at level
  rw [bits] at bounded
  rw [rank, unpacked]
  exact ⟨bounded, level⟩

/-- **Numbers are compared by their bits** and signs. -/
theorem lt_iff_bits (hx : x.isNaN = false) (hy : y.isNaN = false) :
    x < y ↔ (if hasSign x then -(magnitudeBits x : ℤ) else magnitudeBits x) <
      (if hasSign y then -(magnitudeBits y : ℤ) else magnitudeBits y) := by
  obtain ⟨boundX, rankX⟩ := rank_eq_signedLevel hx
  obtain ⟨boundY, rankY⟩ := rank_eq_signedLevel hy
  rw [lt_iff, compare_eq_lt_iff, rankX, rankY, below_signedLevel_iff boundX boundY]
  exact ⟨fun less => less.2.2, fun less => ⟨hx, hy, less⟩⟩

/-! ## Keys -/

/-- The key of a number as a natural number. -/
theorem toNat_totalKey (x : Float) : (totalKey x).toNat =
    if hasSign x then 2 ^ 63 - 1 - magnitudeBits x else 2 ^ 63 + magnitudeBits x := by
  have bound := x.toBits.toNat_lt
  have half : (0x8000000000000000 : UInt64).toNat = 2 ^ 63 := rfl
  unfold totalKey hasSign magnitudeBits
  dsimp only
  by_cases signed : 2 ^ 63 ≤ x.toBits.toNat
  · rw [if_neg (by rw [UInt64.lt_iff_toNat_lt, half]; omega), if_pos (decide_eq_true signed),
      UInt64.toNat_not]
    simp only [UInt64.size]
    omega
  · rw [if_pos (by rw [UInt64.lt_iff_toNat_lt, half]; omega), if_neg (by simpa using signed),
      UInt64.toNat_add, half]
    omega

/-- A number is told by its bits. -/
theorem eq_of_bits (sign : hasSign x = hasSign y) (bits : magnitudeBits x = magnitudeBits y) : x = y := by
  have same : x.toBits.toNat = y.toBits.toNat := by
    have boundX := x.toBits.toNat_lt
    have boundY := y.toBits.toNat_lt
    unfold hasSign at sign
    unfold magnitudeBits at bits
    rw [decide_eq_decide] at sign
    omega
  refine ofFloat_injective ?_
  unfold Parts.ofFloat
  rw [same]

/-- Both zeros are told by their bits. -/
theorem eq_zero_iff (negative : Bool) :
    x = (if negative then -0.0 else 0.0) ↔ hasSign x = negative ∧ magnitudeBits x = 0 := by
  have zero : hasSign (if negative then -0.0 else 0.0) = negative ∧
      magnitudeBits (if negative then -0.0 else 0.0) = 0 := by
    cases negative <;> exact ⟨by decide +kernel, by decide +kernel⟩
  constructor
  · rintro rfl
    exact zero
  · rintro ⟨sign, bits⟩
    exact eq_of_bits (sign.trans zero.1.symm) (bits.trans zero.2.symm)

/-- **Different numbers have different keys.** -/
theorem totalKey_inj : totalKey x = totalKey y ↔ x = y := by
  refine ⟨fun same => ?_, congrArg totalKey⟩
  have keys := congrArg UInt64.toNat same
  have boundX := magnitudeBits_lt x
  have boundY := magnitudeBits_lt y
  rw [toNat_totalKey, toNat_totalKey] at keys
  cases signX : hasSign x <;> cases signY : hasSign y <;>
    simp only [signX, signY, if_true, if_false, Bool.false_eq_true] at keys
  · exact eq_of_bits (signX.trans signY.symm) (by omega)
  · omega
  · omega
  · exact eq_of_bits (signX.trans signY.symm) (by omega)

/-- **The order by which a split compares coordinates** is that of numbers, with the negative zero before the
positive one. -/
theorem totalKey_lt_iff (hx : x.isNaN = false) (hy : y.isNaN = false) :
    totalKey x < totalKey y ↔ x < y ∨ x = -0.0 ∧ y = 0.0 := by
  have boundX := magnitudeBits_lt x
  have boundY := magnitudeBits_lt y
  have negative : x = -0.0 ↔ hasSign x = true ∧ magnitudeBits x = 0 := eq_zero_iff true
  have positive : y = 0.0 ↔ hasSign y = false ∧ magnitudeBits y = 0 := eq_zero_iff false
  rw [UInt64.lt_iff_toNat_lt, toNat_totalKey, toNat_totalKey, lt_iff_bits hx hy, negative, positive]
  cases hasSign x <;> cases hasSign y <;>
    simp only [if_true, if_false, Bool.false_eq_true, Bool.true_eq_false, false_and, and_false, true_and,
      or_false] <;> omega

end FleetMatch.Scalar
