import FleetMatch.Decimal.Shortest
import FleetMatch.Proofs.Decimal.Interval

/-!
# The shortest decimal reads back

The search for the shortest decimal compares natural numbers over one denominator.  What it calls reading
back is lying in the interval of the numbers that round to the number, and on a grid of seventeen digits
some decimal always does.

* `Frames`: a span holds the interval of a number.
* `frames_ofParts`, `readsBack_iff` — comparing in a span is comparing real numbers.
* `nearestOn?_readsBack`, `nearestOn?_fine` — what is found on a grid reads back, and on a fine grid
  something is found.
* `point_spec` — the number of digits before the point.
* `shortest_surrounds` — the shortest decimal lies in the interval, and has at most seventeen digits.
-/

set_option autoImplicit false

namespace FleetMatch.Decimal

open Scalar

/-- A span holds the interval of the numbers that round to a number. -/
structure Frames (s : Span) (m : ℕ) (e : ℤ) : Prop where
  pos : 0 < s.denominator
  value : (s.value : ℝ) = m * 2 ^ e * s.denominator
  low : (s.low : ℝ) = (4 * m - quartersBelow m e) * 2 ^ (e - 2) * s.denominator
  high : (s.high : ℝ) = (4 * m + 2) * 2 ^ (e - 2) * s.denominator
  closed : s.closed = true ↔ m % 2 = 0

theorem frames_ofParts (negative : Bool) {m : ℕ} (hm : 0 < m) (e : ℤ) :
    Frames (.ofParts ⟨negative, m, e⟩) m e := by
  have scale : ((1 <<< (e - 2).toNat : ℕ) : ℝ) = 2 ^ (e - 2) * (1 <<< (-(e - 2)).toNat : ℕ) := by
    rw [Nat.one_shiftLeft, Nat.one_shiftLeft, Nat.cast_pow, Nat.cast_pow, Nat.cast_ofNat, ← zpow_natCast,
      ← zpow_natCast, ← zpow_add₀ (by norm_num)]
    congr 1
    omega
  have quarter : (2 : ℝ) ^ e = 4 * 2 ^ (e - 2) := by
    rw [zpow_sub₀ (by norm_num)]
    ring
  have few : quartersBelow m e ≤ 4 * m := by
    have := (quartersBelow_le m e).2
    omega
  constructor
  · show 0 < 1 <<< (-(e - 2)).toNat
    rw [Nat.one_shiftLeft]
    exact Nat.two_pow_pos _
  · show ((4 * m * 1 <<< (e - 2).toNat : ℕ) : ℝ) = m * (2 : ℝ) ^ e * (1 <<< (-(e - 2)).toNat : ℕ)
    rw [Nat.cast_mul, scale, quarter]
    push_cast
    ring
  · show (((4 * m - quartersBelow m e) * 1 <<< (e - 2).toNat : ℕ) : ℝ) =
      (4 * m - quartersBelow m e) * (2 : ℝ) ^ (e - 2) * (1 <<< (-(e - 2)).toNat : ℕ)
    rw [Nat.cast_mul, scale, Nat.cast_sub few]
    push_cast
    ring
  · show (((4 * m + 2) * 1 <<< (e - 2).toNat : ℕ) : ℝ) =
      (4 * m + 2) * (2 : ℝ) ^ (e - 2) * (1 <<< (-(e - 2)).toNat : ℕ)
    rw [Nat.cast_mul, scale]
    push_cast
    ring
  · show (m % 2 == 0) = true ↔ m % 2 = 0
    exact beq_iff_eq

/-- A power of ten as a quotient of two natural numbers. -/
theorem ten_zpow (unit : ℤ) :
    (10 : ℝ) ^ unit * (Nat.pow 10 (-unit).toNat : ℕ) = (Nat.pow 10 unit.toNat : ℕ) := by
  have power (k : ℕ) : ((Nat.pow 10 k : ℕ) : ℝ) = 10 ^ (k : ℤ) := by
    rw [zpow_natCast]
    exact_mod_cast rfl
  rw [power, power, ← zpow_add₀ (by norm_num)]
  congr 1
  omega

theorem ten_pow_pos (k : ℕ) : 0 < Nat.pow 10 k := Nat.pow_pos (by decide)

variable {s : Span} {m : ℕ} {e : ℤ}

section

variable {d a : ℕ} {x : ℝ}

/-- A quotient and a decimal over one denominator. -/
theorem onGrid_cast (hd : 0 < d) (ha : (a : ℝ) = x * d) (k : ℕ) (unit : ℤ) :
    ∃ c : ℝ, 0 < c ∧ ((a * Nat.pow 10 (-unit).toNat : ℕ) : ℝ) = x * c ∧
      ((k * d * Nat.pow 10 unit.toNat : ℕ) : ℝ) = k * 10 ^ unit * c := by
  refine ⟨d * (Nat.pow 10 (-unit).toNat : ℕ), ?_, ?_, ?_⟩
  · exact_mod_cast Nat.mul_pos hd (ten_pow_pos _)
  · rw [Nat.cast_mul, ha, mul_assoc]
  · rw [Nat.cast_mul, Nat.cast_mul, ← ten_zpow]
    ring

/-- Comparing over one denominator is comparing. -/
theorem le_onGrid_iff (hd : 0 < d) (ha : (a : ℝ) = x * d) (k : ℕ) (unit : ℤ) :
    a * Nat.pow 10 (-unit).toNat ≤ k * d * Nat.pow 10 unit.toNat ↔ x ≤ k * 10 ^ unit := by
  obtain ⟨c, pos, left, right⟩ := onGrid_cast hd ha k unit
  rw [← Nat.cast_le (α := ℝ), left, right]
  exact mul_le_mul_iff_of_pos_right pos

theorem onGrid_le_iff (hd : 0 < d) (ha : (a : ℝ) = x * d) (k : ℕ) (unit : ℤ) :
    k * d * Nat.pow 10 unit.toNat ≤ a * Nat.pow 10 (-unit).toNat ↔ k * 10 ^ unit ≤ x := by
  obtain ⟨c, pos, left, right⟩ := onGrid_cast hd ha k unit
  rw [← Nat.cast_le (α := ℝ), left, right]
  exact mul_le_mul_iff_of_pos_right pos

end

variable {s : Span} {m : ℕ} {e : ℤ}

/-- **A decimal reads back exactly if it lies in the interval.** -/
theorem readsBack_iff (h : Frames s m e) (k : ℕ) (unit : ℤ) :
    s.readsBack k unit = true ↔ Surrounds m e (k * 10 ^ unit) := by
  have low := le_onGrid_iff h.pos h.low k unit
  have high := onGrid_le_iff h.pos h.high k unit
  have low' := onGrid_le_iff h.pos h.low k unit
  have high' := le_onGrid_iff h.pos h.high k unit
  unfold Span.readsBack Span.onGrid
  dsimp only
  cases closed : s.closed with
  | true =>
    have even := h.closed.1 closed
    rw [if_pos rfl, Bool.and_eq_true, decide_eq_true_eq, decide_eq_true_eq, low, high]
    constructor
    · rintro ⟨l, r⟩
      exact ⟨l, r, fun odd => by omega⟩
    · intro inside
      exact ⟨inside.low, inside.high⟩
  | false =>
    have odd : m % 2 = 1 := by
      have := mt h.closed.2 (by rw [closed]; exact Bool.false_ne_true)
      omega
    rw [if_neg Bool.false_ne_true, Bool.and_eq_true, decide_eq_true_eq, decide_eq_true_eq, ← not_le,
      ← not_le, low', high', not_le, not_le]
    constructor
    · rintro ⟨l, r⟩
      exact ⟨l.le, r.le, fun _ => ⟨l, r⟩⟩
    · intro inside
      exact inside.inside odd

/-! ## Grids -/

/-- What is found on a grid reads back. -/
theorem nearestOn?_readsBack {tie : Tie} {unit : ℤ} {k : ℕ} (h : s.nearestOn? tie unit = some k) :
    s.readsBack k unit = true ∧ (k = s.below unit ∨ k = s.below unit + 1) := by
  unfold Span.nearestOn? at h
  dsimp only at h
  split at h
  · rename_i here next
    split at h
    · cases h
      exact ⟨here, .inl rfl⟩
    · split at h
      · cases h
        exact ⟨next, .inr rfl⟩
      · cases tie with
        | up =>
          cases h
          exact ⟨next, .inr rfl⟩
        | even =>
          by_cases even : s.below unit % 2 = 0
          · rw [if_pos even] at h
            cases h
            exact ⟨here, .inl rfl⟩
          · rw [if_neg even] at h
            cases h
            exact ⟨next, .inr rfl⟩
  · rename_i here _
    cases h
    exact ⟨here, .inl rfl⟩
  · rename_i next
    cases h
    exact ⟨next, .inr rfl⟩
  · cases h

/-- If something on a grid next to the value reads back, something is found. -/
theorem nearestOn?_isSome {unit : ℤ} (tie : Tie)
    (h : s.readsBack (s.below unit) unit = true ∨ s.readsBack (s.below unit + 1) unit = true) :
    ∃ k, s.nearestOn? tie unit = some k := by
  unfold Span.nearestOn?
  dsimp only
  split
  · split
    · exact ⟨_, rfl⟩
    · split
      · exact ⟨_, rfl⟩
      · cases tie <;> exact ⟨_, rfl⟩
  · exact ⟨_, rfl⟩
  · exact ⟨_, rfl⟩
  · rename_i here next
    rcases h with h | h
    · cases here.symm.trans h
    · cases next.symm.trans h

/-- The value stands between two neighbours of a grid. -/
theorem below_spec (h : Frames s m e) (unit : ℤ) :
    s.below unit * 10 ^ unit ≤ (m * 2 ^ e : ℝ) ∧ (m * 2 ^ e : ℝ) < (s.below unit + 1 : ℕ) * 10 ^ unit := by
  have pos : 0 < s.denominator * Nat.pow 10 unit.toNat := Nat.mul_pos h.pos (ten_pow_pos _)
  constructor
  · rw [← onGrid_le_iff h.pos h.value, Nat.mul_assoc]
    exact Nat.div_mul_le_self _ _
  · rw [← not_le, ← onGrid_le_iff h.pos h.value, Nat.mul_assoc, not_le, ← Nat.div_lt_iff_lt_mul pos]
    exact Nat.lt_succ_self _

/-- **On a fine grid something is found.** -/
theorem nearestOn?_fine (h : Frames s m e) (short : m < 2 ^ 53) (tie : Tie) {unit : ℤ}
    (fine : 10 ^ unit * 10 ^ 16 ≤ (m * 2 ^ e : ℝ)) : ∃ k, s.nearestOn? tie unit = some k := by
  obtain ⟨here, next⟩ := below_spec h unit
  refine nearestOn?_isSome tie ?_
  rw [readsBack_iff h, readsBack_iff h]
  -- One step of the grid is shorter than the interval, so one of its ends lies inside.
  have pos : (0 : ℝ) < 2 ^ (e - 2) := zpow_pos (by norm_num) _
  have quarter : (2 : ℝ) ^ e = 4 * 2 ^ (e - 2) := by
    rw [zpow_sub₀ (by norm_num)]
    ring
  have few : (1 : ℝ) ≤ quartersBelow m e := by exact_mod_cast (quartersBelow_le m e).1
  have step : (10 : ℝ) ^ unit < (2 + quartersBelow m e) * 2 ^ (e - 2) := by
    rw [quarter] at fine
    by_cases uneven : m = 0x10000000000000 ∧ -1074 < e
    · rw [uneven.1] at fine
      push_cast at fine
      linarith [mul_le_mul_of_nonneg_right few pos.le]
    · have two : (quartersBelow m e : ℝ) = 2 := by exact_mod_cast (if_neg uneven : quartersBelow m e = 2)
      have digits : (m : ℝ) * 2 ^ (e - 2) < 2 ^ 53 * 2 ^ (e - 2) :=
        mul_lt_mul_of_pos_right (by exact_mod_cast short) pos
      rw [two]
      linarith
  rw [quarter] at here next
  push_cast at next ⊢
  by_cases inside : (4 * m - quartersBelow m e) * 2 ^ (e - 2) < (s.below unit * 10 ^ unit : ℝ)
  · have above : (s.below unit * 10 ^ unit : ℝ) < (4 * m + 2) * 2 ^ (e - 2) := by linarith
    exact .inl ⟨inside.le, above.le, fun _ => ⟨inside, above⟩⟩
  · rw [not_lt] at inside
    have above : (s.below unit + 1) * 10 ^ unit < ((4 * m + 2) * 2 ^ (e - 2) : ℝ) := by linarith
    have beyond : ((4 * m - quartersBelow m e) * 2 ^ (e - 2) : ℝ) < (s.below unit + 1) * 10 ^ unit := by
      linarith [mul_le_mul_of_nonneg_right few pos.le]
    exact .inr ⟨beyond.le, above.le, fun _ => ⟨beyond, above⟩⟩

/-! ## The decimal point -/

theorem le_value_iff (h : Frames s m e) (n t : ℕ) :
    n * s.denominator ≤ s.value * Nat.pow 10 t ↔ n * 10 ^ (-(t : ℤ)) ≤ (m * 2 ^ e : ℝ) := by
  have grid := onGrid_le_iff h.pos h.value n (-t)
  rw [neg_neg, Int.toNat_natCast, Int.toNat_neg_natCast] at grid
  rw [← grid]
  show _ ↔ n * s.denominator * 1 ≤ _
  rw [Nat.mul_one]

/-- Powers of two against powers of ten. -/
theorem two_pow_le_ten_pow (k : ℕ) : (2 : ℝ) ^ (93 * k) ≤ 10 ^ (28 * k) := by
  rw [pow_mul, pow_mul]
  exact pow_le_pow_left₀ (by norm_num) (by norm_num) k

/-- The first decimal place of the least positive number. -/
theorem ten_zpow_le_least : (10 : ℝ) ^ (-324 : ℤ) ≤ 2 ^ (-1075 : ℤ) := by
  have ten : (10 : ℝ) ^ (324 : ℤ) = 10 ^ (28 * 11) * 10 ^ 16 := by
    rw [← pow_add, ← zpow_natCast]
    rfl
  have two : (2 : ℝ) ^ (1075 : ℤ) = 2 ^ (93 * 11) * 2 ^ 52 := by
    rw [← pow_add, ← zpow_natCast]
    rfl
  rw [zpow_neg, zpow_neg, inv_le_inv₀ (zpow_pos (by norm_num) _) (zpow_pos (by norm_num) _), ten, two]
  exact mul_le_mul (two_pow_le_ten_pow 11) (by norm_num) (by norm_num) (by positivity)

theorem toDigits_spec {n : ℕ} (hn : 0 < n) :
    10 ^ ((Nat.toDigits 10 n).length - 1) ≤ n ∧ n < 10 ^ (Nat.toDigits 10 n).length := by
  have some : 0 < (Nat.toDigits 10 n).length := Nat.length_toDigits_pos
  refine ⟨?_, (Nat.length_toDigits_le_iff (by decide) some).1 le_rfl⟩
  by_contra less
  rw [not_le] at less
  by_cases single : (Nat.toDigits 10 n).length = 1
  · rw [single] at less
    omega
  · have := (Nat.length_toDigits_le_iff (by decide) (by omega)).2 less
    omega

/-- **The digits before the point are counted right.** -/
theorem point_spec (h : Frames s m e) (hm : 0 < m) (least : -1074 ≤ e) :
    10 ^ (s.point - 1) ≤ (m * 2 ^ e : ℝ) ∧ (m * 2 ^ e : ℝ) < 10 ^ s.point := by
  have atLeast (n : ℕ) : n * s.denominator ≤ s.value ↔ n ≤ (m * 2 ^ e : ℝ) := by
    have iff : n * s.denominator ≤ s.value * 1 ↔ n * 10 ^ (-((0 : ℕ) : ℤ)) ≤ (m * 2 ^ e : ℝ) :=
      le_value_iff h n 0
    rwa [Nat.mul_one, Nat.cast_zero, neg_zero, zpow_zero, mul_one] at iff
  unfold Span.point
  by_cases large : s.denominator ≤ s.value
  · rw [if_pos large]
    have some : 0 < s.value / s.denominator := Nat.div_pos large h.pos
    have digits : 0 < (Nat.toDigits 10 (s.value / s.denominator)).length := Nat.length_toDigits_pos
    obtain ⟨low, high⟩ := toDigits_spec some
    constructor
    · have := (atLeast _).1 ((Nat.le_div_iff_mul_le h.pos).1 low)
      rw [← Nat.cast_pred digits, zpow_natCast]
      exact_mod_cast this
    · have := mt (atLeast _).2 (not_le.2 ((Nat.div_lt_iff_lt_mul h.pos).1 high))
      rw [zpow_natCast]
      rw [not_le] at this
      exact_mod_cast this
  · rw [if_neg large]
    have reaches (t : ℕ) : s.denominator ≤ s.value * Nat.pow 10 t ↔ 10 ^ (-(t : ℤ)) ≤ (m * 2 ^ e : ℝ) := by
      have iff := le_value_iff h 1 t
      rwa [Nat.one_mul, Nat.cast_one, one_mul] at iff
    split
    · rename_i t found
      obtain ⟨here, -, before⟩ := List.find?_range_eq_some.1 found
      have below := (reaches t).1 (of_decide_eq_true here)
      have positive : t ≠ 0 := by
        rintro rfl
        exact large (by simpa using here)
      have above := before (t - 1) (by omega)
      rw [Bool.not_eq_true', decide_eq_false_iff_not, reaches, not_le] at above
      have last : -((t - 1 : ℕ) : ℤ) = 1 - t := by omega
      rw [last] at above
      refine ⟨?_, above⟩
      rwa [sub_sub_cancel_left]
    · rename_i none
      -- Nothing is smaller than the least positive number.
      have beyond : ∀ t : ℕ, t < 350 → (m * 2 ^ e : ℝ) < 10 ^ (-(t : ℤ)) := by
        intro t ht
        have missed := List.find?_range_eq_none.1 none t ht
        rwa [Bool.not_eq_true', decide_eq_false_iff_not, reaches, not_le] at missed
      have exponents : (2 : ℝ) ^ (-1075 : ℤ) ≤ 2 ^ e := zpow_le_zpow_right₀ (by norm_num) (by omega)
      have atLeastOne : (2 : ℝ) ^ e ≤ m * 2 ^ e :=
        le_mul_of_one_le_left (zpow_pos (by norm_num) e).le (by exact_mod_cast hm)
      exact absurd (beyond 324 (by decide)) (not_lt.2 ((ten_zpow_le_least.trans exponents).trans atLeastOne))

/-! ## The shortest decimal -/

/-- Zeros at the end count for the exponent. -/
theorem stripZeros_spec (fuel : ℕ) (d : Scaled) :
    ((stripZeros fuel d).coefficient : ℝ) * 10 ^ (stripZeros fuel d).exponent =
        d.coefficient * 10 ^ d.exponent ∧
      (stripZeros fuel d).coefficient ≤ d.coefficient := by
  induction fuel generalizing d with
  | zero => exact ⟨rfl, le_rfl⟩
  | succ fuel ih =>
    rw [stripZeros]
    split
    · rename_i ends
      obtain ⟨same, fewer⟩ := ih ⟨d.coefficient / 10, d.exponent + 1⟩
      refine ⟨same.trans ?_, fewer.trans (Nat.div_le_self _ _)⟩
      have tens : (d.coefficient : ℝ) = 10 * (d.coefficient / 10 : ℕ) := by
        exact_mod_cast (by omega : d.coefficient = 10 * (d.coefficient / 10))
      rw [zpow_add_one₀ (by norm_num), tens]
      ring
    · exact ⟨rfl, le_rfl⟩

/-- **The shortest decimal of a number lies in the interval of what rounds to it**, and has at most
seventeen digits. -/
theorem shortest_surrounds (tie : Tie) (negative : Bool) (hm : 0 < m) (short : m < 2 ^ 53)
    (least : -1074 ≤ e) :
    let d := shortest tie ⟨negative, m, e⟩
    d.coefficient ≤ 10 ^ 17 ∧ Surrounds m e (d.coefficient * 10 ^ d.exponent) := by
  have frames := frames_ofParts negative hm e
  obtain ⟨atLeast, less⟩ := point_spec frames hm least
  unfold shortest
  dsimp only
  generalize Span.ofParts ⟨negative, m, e⟩ = s at *
  cases found : (List.range 17).findSome? fun (i : ℕ) =>
      (s.nearestOn? tie (s.point - (i + 1 : ℕ))).map fun k => stripZeros 20 ⟨k, s.point - (i + 1 : ℕ)⟩ with
  | none =>
    -- The last grid is fine enough.
    have last := List.findSome?_eq_none_iff.1 found 16 (List.mem_range.2 (by decide))
    have fine : 10 ^ (s.point - (16 + 1 : ℕ)) * 10 ^ 16 ≤ (m * 2 ^ e : ℝ) := by
      have split : (10 : ℝ) ^ (s.point - (16 + 1 : ℕ)) * 10 ^ 16 = 10 ^ (s.point - 1) := by
        rw [← zpow_natCast, ← zpow_add₀ (by norm_num)]
        congr 1
        omega
      rw [split]
      exact atLeast
    obtain ⟨k, hk⟩ := nearestOn?_fine frames short tie fine
    rw [hk] at last
    cases last
  | some d =>
    obtain ⟨i, hi, grid⟩ := List.exists_of_findSome?_eq_some found
    obtain ⟨k, hk, rfl⟩ := Option.map_eq_some_iff.1 grid
    obtain ⟨reads, near⟩ := nearestOn?_readsBack hk
    obtain ⟨same, fewer⟩ := stripZeros_spec 20 ⟨k, s.point - (i + 1 : ℕ)⟩
    obtain ⟨below, -⟩ := below_spec frames (s.point - (i + 1 : ℕ))
    rw [Option.getD_some]
    constructor
    · have digits : (s.below (s.point - (i + 1 : ℕ)) : ℝ) < (10 ^ (i + 1) : ℕ) := by
        have split : (10 : ℝ) ^ s.point = 10 ^ (i + 1) * 10 ^ (s.point - (i + 1 : ℕ)) := by
          rw [← zpow_natCast, ← zpow_add₀ (by norm_num)]
          congr 1
          omega
        have product := below.trans_lt less
        rw [split] at product
        exact_mod_cast lt_of_mul_lt_mul_right product (zpow_pos (by norm_num) _).le
      have few : s.below (s.point - (i + 1 : ℕ)) + 1 ≤ 10 ^ (i + 1) := by exact_mod_cast digits
      have most : 10 ^ (i + 1) ≤ 10 ^ 17 := Nat.pow_le_pow_right (by decide) (by rw [List.mem_range] at hi; omega)
      have one : k ≤ s.below (s.point - (i + 1 : ℕ)) + 1 := by omega
      exact fewer.trans (one.trans (few.trans most))
    · rw [same]
      exact (readsBack_iff frames _ _).1 reads

/-- The exponent of a short decimal in the interval of a number. -/
theorem exponent_of_surrounds {c : ℕ} {u : ℤ} (h : Surrounds m e (c * 10 ^ u)) (hm : 0 < m)
    (short : m < 2 ^ 53) (least : -1074 ≤ e) (small : e < 972) (few : c ≤ 10 ^ 17) :
    0 < c ∧ -341 ≤ u ∧ u ≤ 308 := by
  have pos : (0 : ℝ) < 2 ^ (e - 2) := zpow_pos (by norm_num) _
  have ten : (0 : ℝ) < 10 ^ u := zpow_pos (by norm_num) _
  have some : 0 < c := by
    refine Nat.pos_of_ne_zero ?_
    rintro rfl
    have := h.pos hm
    simp at this
  have one : (1 : ℝ) ≤ c := by exact_mod_cast some
  refine ⟨some, ?_, ?_⟩
  · have quarters : (quartersBelow m e : ℝ) ≤ 2 := by exact_mod_cast (quartersBelow_le m e).2
    have mantissa : (1 : ℝ) ≤ m := by exact_mod_cast hm
    have lowest : (2 : ℝ) ^ (-1075 : ℤ) ≤ c * 10 ^ u :=
      calc (2 : ℝ) ^ (-1075 : ℤ)
        _ ≤ 2 ^ (e - 2 + 1) := zpow_le_zpow_right₀ (by norm_num) (by omega)
        _ = 2 * 2 ^ (e - 2) := by rw [zpow_add_one₀ (by norm_num), mul_comm]
        _ ≤ (4 * m - quartersBelow m e) * 2 ^ (e - 2) := mul_le_mul_of_nonneg_right (by linarith) pos.le
        _ ≤ c * 10 ^ u := h.low
    have digits : (c : ℝ) * 10 ^ u ≤ 10 ^ (17 + u) := by
      rw [zpow_add₀ (by norm_num)]
      exact mul_le_mul_of_nonneg_right (by exact_mod_cast few) ten.le
    have exponents := (zpow_le_zpow_iff_right₀ (by norm_num : (1 : ℝ) < 10)).1
      ((ten_zpow_le_least.trans lowest).trans digits)
    omega
  · have digits : (m : ℝ) + 1 ≤ 2 ^ 53 := by exact_mod_cast short
    have highest : (c : ℝ) * 10 ^ u < 10 ^ (309 : ℤ) :=
      calc (c : ℝ) * 10 ^ u
        _ ≤ (4 * m + 2) * 2 ^ (e - 2) := h.high
        _ ≤ 2 ^ 55 * 2 ^ (969 : ℤ) := by
          refine mul_le_mul (by linarith) (zpow_le_zpow_right₀ (by norm_num) (by omega)) pos.le (by norm_num)
        _ = 2 * 2 ^ (93 * 11) := by
          rw [← zpow_natCast, ← zpow_natCast, ← zpow_add₀ (by norm_num), ← zpow_one_add₀ (by norm_num)]
          rfl
        _ ≤ 2 * 10 ^ (28 * 11) := mul_le_mul_of_nonneg_left (two_pow_le_ten_pow 11) (by norm_num)
        _ < 10 * 10 ^ (28 * 11) := mul_lt_mul_of_pos_right (by norm_num) (by positivity)
        _ = 10 ^ (309 : ℤ) := by
          rw [← zpow_natCast, ← zpow_one_add₀ (by norm_num)]
          rfl
    have exponents := (zpow_lt_zpow_iff_right₀ (by norm_num : (1 : ℝ) < 10)).1
      ((le_mul_of_one_le_left ten.le one).trans_lt highest)
    omega

end FleetMatch.Decimal
