import FleetMatch.Proofs.Scalar.Quotients

/-!
# What rounds to a number

The numbers that round to a binary64 number fill an interval around it.  It ends in the middle to each of
the two neighbours, and below a power of two the neighbour is only half as far.

* `Surrounds`: the interval of a mantissa with an exponent, in quarters of the unit of the mantissa.
* `halfEven_of_near` — what is nearest among integers.
* `roundMagnitude_of_surrounds` — everything in the interval rounds to the number.
-/

set_option autoImplicit false

namespace FleetMatch.Scalar

/-- The distance to the middle below, in quarters. -/
def quartersBelow (m : ℕ) (e : ℤ) : ℕ := if m = 0x10000000000000 ∧ -1074 < e then 1 else 2

/-- A number lies between the middles to both neighbours.  An even mantissa takes the middles too. -/
structure Surrounds (m : ℕ) (e : ℤ) (t : ℝ) : Prop where
  low : (4 * m - quartersBelow m e) * 2 ^ (e - 2) ≤ t
  high : t ≤ (4 * m + 2) * 2 ^ (e - 2)
  inside : m % 2 = 1 → (4 * m - quartersBelow m e) * 2 ^ (e - 2) < t ∧ t < (4 * m + 2) * 2 ^ (e - 2)

/-- The nearest integer is at most a half away, and it is even if it is a half away. -/
theorem halfEven_of_near {y : ℝ} {n : ℤ} (low : n - 1 / 2 ≤ y) (high : y ≤ n + 1 / 2)
    (inside : n % 2 = 1 → n - 1 / 2 < y ∧ y < n + 1 / 2) : halfEven y = n := by
  have parity := Int.emod_two_eq_zero_or_one n
  rcases le_or_gt (n : ℝ) y with above | below
  · have floor : ⌊y⌋ = n := Int.floor_eq_iff.2 ⟨above, by linarith⟩
    have fract : Int.fract y = y - n := by rw [Int.fract, floor]
    unfold halfEven
    rw [fract, floor]
    split_ifs with less more
    · rfl
    · linarith
    · rcases parity with even | odd
      · omega
      · have := (inside odd).2
        linarith
  · have floor : ⌊y⌋ = n - 1 := by
      refine Int.floor_eq_iff.2 ⟨?_, ?_⟩ <;> push_cast <;> linarith
    have fract : Int.fract y = y - n + 1 := by
      rw [Int.fract, floor]
      push_cast
      ring
    unfold halfEven
    rw [fract, floor]
    split_ifs with less more
    · linarith
    · omega
    · rcases parity with even | odd
      · omega
      · have := (inside odd).1
        linarith

theorem roundMagnitude_of_near {t : ℝ} {n : ℕ} {g : ℤ} (unit : ulpExponent t = g)
    (low : (n - 1 / 2) * 2 ^ g ≤ t) (high : t ≤ (n + 1 / 2) * 2 ^ g)
    (inside : n % 2 = 1 → (n - 1 / 2) * 2 ^ g < t ∧ t < (n + 1 / 2) * 2 ^ g) :
    roundMagnitude t = n * 2 ^ g := by
  have pos : (0 : ℝ) < 2 ^ g := zpow_pos (by norm_num) _
  have whole : halfEven (t / 2 ^ g) = (n : ℤ) := by
    refine halfEven_of_near ?_ ?_ ?_
    · rw [le_div_iff₀ pos, Int.cast_natCast]
      exact low
    · rw [div_le_iff₀ pos, Int.cast_natCast]
      exact high
    · intro odd
      rw [lt_div_iff₀ pos, div_lt_iff₀ pos, Int.cast_natCast]
      exact inside (by omega)
  rw [roundMagnitude, ulp, unit, whole, Int.cast_natCast]

section

variable {s : Float.Model.UnpackedFloat.Sign} {m : ℕ} {e : ℤ} {hm : 0 < m} {t : ℝ}

/-- The exponent of what lies above a number and below the next one. -/
theorem ulpExponent_above (canonical : Canonical (.finite s m e hm)) (low : m * 2 ^ e ≤ t)
    (high : t < (m + 1) * 2 ^ e) : ulpExponent t = e := by
  obtain ⟨short, least, long⟩ := canonical
  have digits : m.log2 < 53 := (Nat.log2_lt hm.ne').2 short
  rw [ulpExponent_of_mantissa hm low high]
  rcases long with long | rfl
  · have : 52 ≤ m.log2 := (Nat.le_log2 hm.ne').2 long
    omega
  · omega

/-- The exponent of what lies below a number and above the last one, if that is as far. -/
theorem ulpExponent_below (canonical : Canonical (.finite s m e hm))
    (even : ¬(m = 0x10000000000000 ∧ -1074 < e)) (pos : 0 < t) (low : (m - 1) * 2 ^ e ≤ t)
    (high : t < m * 2 ^ e) : ulpExponent t = e := by
  obtain ⟨short, least, long⟩ := canonical
  rcases Nat.lt_or_ge 1 m with more | one
  · have cast : ((m - 1 : ℕ) : ℝ) = m - 1 := by
      rw [Nat.cast_sub hm, Nat.cast_one]
    have below : ((m - 1 : ℕ) : ℝ) * 2 ^ e ≤ t := by rwa [cast]
    have above : t < ((m - 1 : ℕ) + 1) * 2 ^ e := by rwa [cast, sub_add_cancel]
    have positive : 0 < m - 1 := by omega
    have digits : (m - 1).log2 < 53 := (Nat.log2_lt positive.ne').2 (by omega)
    rw [ulpExponent_of_mantissa positive below above]
    rcases long with long | rfl
    · by_cases lowest : e = -1074
      · omega
      · have first : 2 ^ 52 ≤ m - 1 := by omega
        have : 52 ≤ (m - 1).log2 := (Nat.le_log2 positive.ne').2 first
        omega
    · omega
  · obtain rfl : m = 1 := by omega
    obtain rfl : e = -1074 := long.resolve_left (by decide)
    rw [Nat.cast_one, one_mul] at high
    exact ulpExponent_of_small pos high

theorem quartersBelow_le (m : ℕ) (e : ℤ) : 1 ≤ quartersBelow m e ∧ quartersBelow m e ≤ 2 := by
  unfold quartersBelow
  split <;> decide

theorem Surrounds.pos (h : Surrounds m e t) (hm : 0 < m) : 0 < t := by
  have few : (quartersBelow m e : ℝ) ≤ 2 := by exact_mod_cast (quartersBelow_le m e).2
  have many : (1 : ℝ) ≤ m := by exact_mod_cast hm
  refine lt_of_lt_of_le (mul_pos ?_ (zpow_pos (by norm_num) _)) h.low
  linarith

/-- **Everything around a number rounds to it.** -/
theorem roundMagnitude_of_surrounds (canonical : Canonical (.finite s m e hm)) (h : Surrounds m e t) :
    roundMagnitude t = m * 2 ^ e := by
  have pos : (0 : ℝ) < 2 ^ (e - 2) := zpow_pos (by norm_num) _
  have quarter : (2 : ℝ) ^ e = 4 * 2 ^ (e - 2) := by
    rw [zpow_sub₀ (by norm_num)]
    ring
  have low := h.low
  have high := h.high
  have inside := h.inside
  rcases le_or_gt (m * 2 ^ e : ℝ) t with above | below
  · refine roundMagnitude_of_near (ulpExponent_above canonical above ?_) ?_ ?_ ?_ <;> rw [quarter] at *
    · linarith
    · linarith
    · linarith
    · intro odd
      exact ⟨by linarith, by linarith [(inside odd).2]⟩
  · by_cases uneven : m = 0x10000000000000 ∧ -1074 < e
    · -- Below a power of two, numbers have twice as many places.
      obtain ⟨rfl, normal⟩ := uneven
      have half : (2 : ℝ) ^ (e - 1) = 2 * 2 ^ (e - 2) := by
        rw [show e - 1 = e - 2 + 1 by ring, zpow_add_one₀ (by norm_num), mul_comm]
      have one : quartersBelow 0x10000000000000 e = 1 := if_pos ⟨rfl, normal⟩
      rw [one] at low
      rw [quarter] at below
      push_cast at low high below
      have last : Canonical (.finite s 0x1FFFFFFFFFFFFF (e - 1) (by decide)) :=
        ⟨by decide, by omega, .inl (by decide)⟩
      have unit : ulpExponent t = e - 1 := by
        refine ulpExponent_above last ?_ ?_ <;> rw [half] <;> push_cast <;> linarith
      have rounds : roundMagnitude t = (0x20000000000000 : ℕ) * 2 ^ (e - 1) := by
        refine roundMagnitude_of_near unit ?_ ?_ ?_
        · rw [half]
          push_cast
          linarith
        · rw [half]
          push_cast
          linarith
        · intro odd
          exact absurd odd (by decide)
      rw [rounds, quarter, half]
      push_cast
      ring
    · have two : quartersBelow m e = 2 := if_neg uneven
      rw [two] at low inside
      push_cast at low inside
      have unit : ulpExponent t = e := by
        refine ulpExponent_below canonical uneven (h.pos hm) ?_ below
        rw [quarter]
        linarith
      refine roundMagnitude_of_near unit ?_ ?_ ?_ <;> rw [quarter] at *
      · linarith
      · linarith
      · intro odd
        exact ⟨by linarith [(inside odd).1], by linarith⟩

end

end FleetMatch.Scalar
