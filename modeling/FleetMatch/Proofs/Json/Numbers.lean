import FleetMatch.Proofs.Decimal.Digits
import FleetMatch.Proofs.Decimal.Reading
import FleetMatch.Proofs.Decimal.Shortest
import FleetMatch.Proofs.Decimal.Stepwise
import FleetMatch.Proofs.Json.Grammar

/-!
# Written numbers

A number is written as a numeral of the grammar, and the numeral stands for the number.  For whole numbers
of 64 bits this is plain; a binary64 number is written by its shortest decimal, in one of four layouts, and
every layout stands for this decimal.

* `integerText_ofInt`, `IntegerText.numeral` — whole numbers of 64 bits.
* `floatText_of_short` — numerals with few digits are read correctly, even in steps.
* `Pads`: a decimal with more zeros at its end.
* `positionalText_text`, `exponentText_text`, `positive_text` — the layouts of JSON.
* `float_text` — finite binary64 numbers come back as they are.
* `readsBack_of_hasFewDigits` — if their decimals have few digits, they do so even in steps.
-/

set_option autoImplicit false

namespace FleetMatch.Json

open FleetMatch.Numeral (digits isDigit isDigit_of_mem_digits)
open Decimal

/-! ## Runs of digits -/

theorem IsDigits.append {a b : List Char} (ha : IsDigits a) (hb : ∀ c ∈ b, isDigit c = true) :
    IsDigits (a ++ b) := by
  refine ⟨List.append_ne_nil_of_left_ne_nil ha.1 b, ?_⟩
  intro c hc
  rcases List.mem_append.1 hc with h | h
  · exact ha.2 c h
  · exact hb c h

theorem isDigit_of_mem_zeros {c : Char} {k : ℕ} (h : c ∈ Layout.zeros k) : isDigit c = true := by
  rw [List.eq_of_mem_replicate h]
  rfl

theorem isDigits_digits (n : ℕ) : IsDigits (digits n) :=
  ⟨FleetMatch.Numeral.digits_ne_nil n, fun _ => isDigit_of_mem_digits⟩

/-- The numeral of a number has no zeros in front of other digits. -/
theorem isWhole_digits (n : ℕ) : IsWhole (digits n) := by
  refine ⟨isDigits_digits n, ?_⟩
  intro zero
  rcases Nat.eq_zero_or_pos n with rfl | pos
  · rfl
  · exact absurd zero (FleetMatch.Numeral.head?_digits pos)

theorem isDigits_zero : IsDigits ['0'] := isDigits_digits 0

theorem isWhole_zero : IsWhole ['0'] := isWhole_digits 0

/-! ## Integers -/

/-- An integer of 64 bits is written by its numeral. -/
theorem integerText_ofInt (n : ℤ) : IntegerText (FleetMatch.Numeral.ofInt n).toList n := by
  unfold FleetMatch.Numeral.ofInt FleetMatch.Numeral.ofNat
  by_cases neg : n < 0
  · have text := IntegerText.negative (isWhole_digits n.natAbs)
      (by rw [FleetMatch.Numeral.value_digits]; omega)
    rw [FleetMatch.Numeral.value_digits] at text
    rw [if_pos neg, String.toList_ofList]
    have opposite : -(n.natAbs : ℤ) = n := by omega
    rwa [opposite] at text
  · have text := IntegerText.natural (isWhole_digits n.natAbs)
    rw [FleetMatch.Numeral.value_digits] at text
    rw [if_neg neg, String.toList_ofList]
    have same : (n.natAbs : ℤ) = n := by omega
    rwa [same] at text

theorem fits64_iff {i : ℤ} :
    FleetMatch.Numeral.fits64 i = true ↔ -0x8000000000000000 ≤ i ∧ i < 0x10000000000000000 := by
  rw [FleetMatch.Numeral.fits64, Bool.and_eq_true, decide_eq_true_eq, decide_eq_true_eq]

/-- The text of an integer is a numeral, and an integer of 64 bits is what it stands for. -/
theorem IntegerText.numeral {t : List Char} {i : ℤ} (h : IntegerText t i) :
    ∃ n, NumeralText t n ∧
      (FleetMatch.Numeral.fits64 i = true → ∀ rounding, n.number rounding = .ok (.int i)) := by
  cases h with
  | natural whole =>
    have text := NumeralText.intro (n := ⟨false, t, [], none⟩) whole .absent .absent
    rw [List.append_nil, List.append_nil, if_neg Bool.false_ne_true, List.nil_append] at text
    refine ⟨_, text, ?_⟩
    intro fits _
    rw [fits64_iff] at fits
    have small : FleetMatch.Numeral.value t < UInt64.size := by
      have size : UInt64.size = 0x10000000000000000 := rfl
      omega
    show (if FleetMatch.Numeral.value t < UInt64.size then _ else _) = _
    rw [if_pos small]
  | @negative ds whole pos =>
    have text := NumeralText.intro (n := ⟨true, ds, [], none⟩) whole .absent .absent
    rw [List.append_nil, List.append_nil, if_pos rfl, List.singleton_append] at text
    refine ⟨_, text, ?_⟩
    intro fits _
    rw [fits64_iff] at fits
    have small : (0 < FleetMatch.Numeral.value ds &&
        FleetMatch.Numeral.value ds ≤ 0x8000000000000000) = true := by
      rw [Bool.and_eq_true, decide_eq_true_eq, decide_eq_true_eq]
      omega
    show (if (0 < FleetMatch.Numeral.value ds &&
        FleetMatch.Numeral.value ds ≤ 0x8000000000000000) = true then _ else _) = _
    rw [if_pos small]

/-! ## Binary64 numbers -/

/-- A finite number is what a correct reader makes of the numeral. -/
theorem float?_nearest {n : Numeral} (finite : n.nearest.isFinite = true) :
    n.float? .nearest = some n.nearest := if_pos finite

/-- A numeral of a finite number is taken for the nearest one, also if it is read as an integer. -/
theorem number_of_nearest {n : Numeral} (finite : n.nearest.isFinite = true) :
    ∃ m, n.number .nearest = .ok m ∧ m.toFloat = n.nearest := by
  have plain : n.fraction.isEmpty && n.exponent.isNone → n.nearest =
      Decimal.ofDecimal n.negative (FleetMatch.Numeral.value n.whole) 0 := by
    intro whole
    rw [Bool.and_eq_true, List.isEmpty_iff, Option.isNone_iff_eq_none] at whole
    rw [Numeral.nearest, whole.1, whole.2, List.append_nil]
    rfl
  unfold Numeral.number
  rw [float?_nearest finite]
  dsimp only
  split
  · rename_i whole
    rw [plain whole]
    split
    · rename_i negative
      split
      · rename_i small
        rw [Bool.and_eq_true, decide_eq_true_eq] at small
        refine ⟨_, rfl, ?_⟩
        rw [Number.toFloat, negative, decide_eq_true (by omega), Int.natAbs_neg, Int.natAbs_natCast]
      · exact ⟨_, rfl, rfl⟩
    · rename_i positive
      split
      · refine ⟨_, rfl, ?_⟩
        rw [Bool.not_eq_true] at positive
        rw [Number.toFloat, positive, decide_eq_false (by omega), Int.natAbs_natCast]
      · exact ⟨_, rfl, rfl⟩
  · exact ⟨_, rfl, rfl⟩

/-- What is written with a point or an exponent is no integer. -/
theorem number_of_fractional {rounding : Rounding} {n : Numeral} {x : Float}
    (fractional : n.fraction ≠ [] ∨ n.exponent ≠ none) (float : n.float? rounding = some x) :
    n.number rounding = .ok (.float x) := by
  have whole : ¬(n.fraction.isEmpty && n.exponent.isNone) = true := by
    rw [Bool.and_eq_true, List.isEmpty_iff, Option.isNone_iff_eq_none]
    rintro ⟨none, none'⟩
    rcases fractional with h | h
    · exact h none
    · exact h none'
  unfold Numeral.number
  simp only [float, if_neg whole]

/-- A numeral with few digits, next to the ones.  The digits fit a binary64 number, and so does the power
of ten. -/
structure IsShort (n : Numeral) : Prop where
  few : FleetMatch.Numeral.value (n.whole ++ n.fraction) < 2 ^ 53
  low : -22 ≤ n.exponent.getD 0 - n.fraction.length
  high : n.exponent.getD 0 - n.fraction.length ≤ 22

/-- A sign takes no digits. -/
theorem IsShort.withSign {n : Numeral} (h : IsShort n) (negative : Bool) :
    IsShort ⟨negative, n.whole, n.fraction, n.exponent⟩ := ⟨h.few, h.low, h.high⟩

theorem isShort_zero : IsShort ⟨false, ['0'], ['0'], none⟩ := ⟨by decide, by decide, by decide⟩

/-- **A short numeral is taken for the nearest binary64 number**, also in steps. -/
theorem floatText_of_short {t : List Char} {n : Numeral} {x : Float} (text : NumeralText t n)
    (short : IsShort n) (near : n.nearest = x) : FloatText .stepwise t x := by
  have finite : n.nearest.isFinite = true :=
    isFinite_ofDecimal_of_short n.negative short.few short.low short.high
  have float : n.float? .stepwise = n.float? .nearest := by
    rw [float?_nearest finite]
    exact stepwise?_of_short n.negative short.few short.low short.high
  have number : n.number .stepwise = n.number .nearest := by
    unfold Numeral.number
    rw [float]
  obtain ⟨m, meant, same⟩ := number_of_nearest finite
  exact ⟨n, text, m, number.trans meant, same.trans near⟩

/-! ## Layouts -/

/-- A numeral stands for a decimal, written with some more zeros at its end, and not for an integer.  The
zeros lead to the ones and to one place behind them at most. -/
structure Pads (n : Numeral) (c : ℕ) (u : ℤ) : Prop where
  fractional : n.fraction ≠ [] ∨ n.exponent ≠ none
  few : FleetMatch.Numeral.value (n.whole ++ n.fraction) < 10 ^ 18
  zeros : ∃ k : ℕ, k ≤ u.toNat + 1 ∧ FleetMatch.Numeral.value (n.whole ++ n.fraction) = c * 10 ^ k ∧
    n.exponent.getD 0 - n.fraction.length = u - k

/-- A decimal with few digits stays short with its zeros. -/
theorem Pads.isShort {n : Numeral} {c : ℕ} {u : ℤ} (h : Pads n c u) (hc : 0 < c)
    (few : c * 10 ^ (u.toNat + 1) < 2 ^ 53) (low : -21 ≤ u) : IsShort n := by
  obtain ⟨k, most, value, exponent⟩ := h.zeros
  have high : u.toNat + 1 < 16 := by
    refine (Nat.pow_lt_pow_iff_right (by decide : 1 < 10)).1 ?_
    calc 10 ^ (u.toNat + 1)
      _ ≤ c * 10 ^ (u.toNat + 1) := Nat.le_mul_of_pos_left _ hc
      _ < 2 ^ 53 := few
      _ < 10 ^ 16 := by norm_num
  constructor
  · rw [value]
    exact (Nat.mul_le_mul_left c (Nat.pow_le_pow_right (by decide) most)).trans_lt few
  · rw [exponent]
    omega
  · rw [exponent]
    omega

theorem isWhole_of_head? {t : List Char} (h : IsDigits t) (first : t.head? ≠ some '0') : IsWhole t :=
  ⟨h, fun zero => absurd zero first⟩

section

variable {c : ℕ}

theorem isWhole_digits_append (hc : 0 < c) (k : ℕ) : IsWhole (digits c ++ Layout.zeros k) := by
  refine isWhole_of_head? ((isDigits_digits c).append fun _ => isDigit_of_mem_zeros) ?_
  obtain ⟨d, rest, same⟩ := List.exists_cons_of_ne_nil (FleetMatch.Numeral.digits_ne_nil c)
  have first := FleetMatch.Numeral.head?_digits hc
  rw [same] at first ⊢
  exact first

theorem isWhole_take (hc : 0 < c) {k : ℕ} (hk : 0 < k) : IsWhole ((digits c).take k) := by
  have first := FleetMatch.Numeral.head?_digits hc
  have nonempty := FleetMatch.Numeral.digits_ne_nil c
  refine isWhole_of_head? ⟨?_, ?_⟩ ?_
  · rw [Ne, List.take_eq_nil_iff]
    rintro (zero | none)
    · omega
    · exact nonempty none
  · exact fun d hd => isDigit_of_mem_digits (List.mem_of_mem_take hd)
  · rwa [List.head?_take, if_neg hk.ne']

theorem isDigits_drop {k : ℕ} (hk : k < (digits c).length) : IsDigits ((digits c).drop k) := by
  refine ⟨?_, fun d hd => isDigit_of_mem_digits (List.mem_of_mem_drop hd)⟩
  rw [Ne, List.drop_eq_nil_iff, not_le]
  exact hk

/-- A numeral with a point and no exponent. -/
theorem pointed_text {w f : List Char} (hw : IsWhole w) (hf : IsDigits f) :
    NumeralText (w ++ '.' :: f) ⟨false, w, f, none⟩ := by
  have text := NumeralText.intro (n := ⟨false, w, f, none⟩) hw (.point hf) .absent
  rwa [if_neg Bool.false_ne_true, List.nil_append, List.append_nil] at text

theorem length_zeros (k : ℕ) : (Layout.zeros k).length = k := List.length_replicate

/-- A point behind the digits and the zeros that they lack. -/
theorem behind_text (hc : 0 < c) {k : ℕ} (places : k + (digits c).length ≤ 16) :
    ∃ n, NumeralText (digits c ++ Layout.zeros k ++ ['.', '0']) n ∧ n.negative = false ∧ Pads n c k := by
  have text := pointed_text (isWhole_digits_append hc k) isDigits_zero
  have value : FleetMatch.Numeral.value ((digits c ++ Layout.zeros k) ++ ['0']) = c * 10 ^ (k + 1) := by
    rw [FleetMatch.Numeral.value_append, FleetMatch.Numeral.value_append,
      FleetMatch.Numeral.value_zeros, FleetMatch.Numeral.value_digits, length_zeros, pow_succ, ← mul_assoc]
    rfl
  have small : c * 10 ^ (k + 1) < 10 ^ 18 :=
    calc c * 10 ^ (k + 1)
      _ < 10 ^ (digits c).length * 10 ^ (k + 1) :=
        Nat.mul_lt_mul_of_pos_right (toDigits_spec hc).2 (Nat.pow_pos (by decide))
      _ = 10 ^ ((digits c).length + (k + 1)) := (pow_add _ _ _).symm
      _ ≤ 10 ^ 18 := Nat.pow_le_pow_right (by decide) (by omega)
  refine ⟨_, text, rfl, .inl (List.cons_ne_nil _ _), ?_, k + 1, by omega, value, ?_⟩
  · rw [value]
    exact small
  · show (0 : ℤ) - (1 : ℕ) = k - (k + 1 : ℕ)
    omega

/-- A point among the digits. -/
theorem among_text (hc : 0 < c) (few : c < 10 ^ 18) {k : ℕ} (some : 0 < k) (more : k < (digits c).length) :
    ∃ n, NumeralText ((digits c).take k ++ '.' :: (digits c).drop k) n ∧ n.negative = false ∧
      Pads n c (k - (digits c).length) := by
  have fraction := isDigits_drop more
  have value : FleetMatch.Numeral.value ((digits c).take k ++ (digits c).drop k) = c := by
    rw [List.take_append_drop, FleetMatch.Numeral.value_digits]
  refine ⟨_, pointed_text (isWhole_take hc some) fraction, rfl, .inl fraction.1, ?_, 0, Nat.zero_le _, ?_, ?_⟩
  · rw [value]
    exact few
  · rw [value, pow_zero, mul_one]
  · rw [List.length_drop]
    show (0 : ℤ) - _ = _
    omega

/-- A point before the digits, and zeros between. -/
theorem before_text (few : c < 10 ^ 18) (k : ℕ) :
    ∃ n, NumeralText (['0', '.'] ++ Layout.zeros k ++ digits c) n ∧ n.negative = false ∧
      Pads n c (-(k + (digits c).length)) := by
  have fraction : IsDigits (Layout.zeros k ++ digits c) := by
    refine ⟨List.append_ne_nil_of_right_ne_nil _ (FleetMatch.Numeral.digits_ne_nil c), ?_⟩
    intro d hd
    rcases List.mem_append.1 hd with zero | digit
    · exact isDigit_of_mem_zeros zero
    · exact isDigit_of_mem_digits digit
  have value : FleetMatch.Numeral.value (['0'] ++ (Layout.zeros k ++ digits c)) = c := by
    rw [FleetMatch.Numeral.value_append, FleetMatch.Numeral.value_append, FleetMatch.Numeral.value_zeros,
      FleetMatch.Numeral.value_digits, zero_mul, zero_add]
    show 0 * _ + c = c
    rw [zero_mul, zero_add]
  have text := pointed_text isWhole_zero fraction
  refine ⟨_, text, rfl, .inl fraction.1, ?_, 0, Nat.zero_le _, ?_, ?_⟩
  · rw [value]
    exact few
  · rw [value, pow_zero, mul_one]
  · rw [List.length_append, length_zeros]
    show (0 : ℤ) - _ = _
    omega

/-- Positional text. -/
theorem positionalText_text (hc : 0 < c) (few : c < 10 ^ 18) {u : ℤ} (places : u + (digits c).length ≤ 16) :
    ∃ n, NumeralText (Layout.json.positionalText (digits c) (u + (digits c).length)) n ∧
      n.negative = false ∧ Pads n c u := by
  unfold Layout.positionalText
  by_cases behind : ((digits c).length : ℤ) ≤ u + (digits c).length
  · have zeros : (u + (digits c).length - (digits c).length).toNat = u.toNat := by omega
    have exponent : (u.toNat : ℤ) = u := by omega
    rw [if_pos behind, zeros, ← exponent]
    exact behind_text hc (by omega)
  · rw [if_neg behind]
    by_cases among : 0 < u + (digits c).length
    · have exponent : ((u + (digits c).length).toNat : ℤ) - (digits c).length = u := by omega
      have text := among_text hc few (k := (u + (digits c).length).toNat) (by omega) (by omega)
      rw [if_pos among]
      rwa [exponent] at text
    · have exponent : -(((-(u + (digits c).length)).toNat : ℤ) + (digits c).length) = u := by omega
      have text := before_text few (-(u + (digits c).length)).toNat
      rw [if_neg among]
      rwa [exponent] at text

/-- Text with an exponent. -/
theorem exponentText_text (hc : 0 < c) (few : c < 10 ^ 18) (u : ℤ) :
    ∃ n, NumeralText (Layout.json.exponentText (digits c) (u + (digits c).length - 1)) n ∧
      n.negative = false ∧ Pads n c u := by
  generalize hE : u + (digits c).length - 1 = E
  have length : 0 < (digits c).length := List.length_pos_iff.2 (FleetMatch.Numeral.digits_ne_nil c)
  have fraction : FractionText (if ((digits c).drop 1).isEmpty then [] else '.' :: (digits c).drop 1)
      ((digits c).drop 1) := by
    by_cases single : (digits c).length = 1
    · have none : (digits c).drop 1 = [] := List.drop_eq_nil_of_le single.le
      rw [none]
      exact .absent
    · have more := isDigits_drop (by omega : 1 < (digits c).length)
      rw [if_neg (by simpa using more.1)]
      exact .point more
  have exponent : ExponentText (['e'] ++ (if E < 0 then ['-'] else ['+']) ++ digits E.natAbs) (some E) := by
    by_cases neg : E < 0
    · have text := ExponentText.minus (e := 'e') (.inl rfl) (isDigits_digits E.natAbs)
      have value : -((FleetMatch.Numeral.value (digits E.natAbs) : ℕ) : ℤ) = E := by
        rw [FleetMatch.Numeral.value_digits]
        omega
      rw [if_pos neg]
      rwa [value] at text
    · have text := ExponentText.plus (e := 'e') (.inl rfl) (isDigits_digits E.natAbs)
      have value : ((FleetMatch.Numeral.value (digits E.natAbs) : ℕ) : ℤ) = E := by
        rw [FleetMatch.Numeral.value_digits]
        omega
      rw [if_neg neg]
      rwa [value] at text
  have text := NumeralText.intro (n := ⟨false, (digits c).take 1, (digits c).drop 1, some E⟩)
    (isWhole_take hc (by decide)) fraction exponent
  have value : FleetMatch.Numeral.value ((digits c).take 1 ++ (digits c).drop 1) = c := by
    rw [List.take_append_drop, FleetMatch.Numeral.value_digits]
  rw [if_neg Bool.false_ne_true, List.nil_append, ← List.append_assoc, ← List.append_assoc,
    ← List.append_assoc] at text
  refine ⟨_, text, rfl, .inr (Option.some_ne_none E), ?_, 0, Nat.zero_le _, ?_, ?_⟩
  · rw [value]
    exact few
  · rw [value, pow_zero, mul_one]
  · rw [List.length_drop]
    show E - _ = _
    omega

end

/-- **A positive number is written as its shortest decimal.** -/
theorem positive_text (p : Scalar.Parts) (hc : 0 < (shortest .even p).coefficient)
    (few : (shortest .even p).coefficient < 10 ^ 18) :
    ∃ n, NumeralText (Layout.json.positive p) n ∧ n.negative = false ∧
      Pads n (shortest .even p).coefficient (shortest .even p).exponent := by
  have tie : Layout.json.tie = .even := rfl
  unfold Layout.positive
  dsimp only
  rw [tie]
  generalize shortest .even p = d at *
  obtain ⟨c, u⟩ := d
  dsimp only at hc few ⊢
  split
  · rename_i positional
    have places : u + (digits c).length - 1 + 1 = u + (digits c).length := by omega
    rw [places]
    refine positionalText_text hc few ?_
    have range : (decide (-5 ≤ u + (digits c).length - 1) && decide (u + (digits c).length - 1 < 16)) = true :=
      positional
    rw [Bool.and_eq_true, decide_eq_true_eq, decide_eq_true_eq] at range
    omega
  · exact exponentText_text hc few u

/-! ## Finite numbers -/

/-- A numeral with a sign in front. -/
theorem NumeralText.withSign {t : List Char} {n : Numeral} (h : NumeralText t n) (plain : n.negative = false)
    (negative : Bool) : NumeralText ((if negative then ['-'] else []) ++ t)
      ⟨negative, n.whole, n.fraction, n.exponent⟩ := by
  obtain ⟨whole, fraction, exponent⟩ := h
  rw [plain, if_neg Bool.false_ne_true, List.nil_append]
  exact .intro (n := ⟨negative, _, _, _⟩) whole fraction exponent

open Scalar Float.Model in
/-- What rounds to a number stands for it, however many zeros are written. -/
theorem nearest_of_pads {x : Float} {s : UnpackedFloat.Sign} {m : ℕ} {e : ℤ} {hm : 0 < m}
    (hx : x.toModel.unpack = .finite s m e hm) {n : Numeral} {c : ℕ} {u : ℤ} (sign : n.negative = isNegative s)
    (hc : 0 < c) (low : -341 ≤ u) (high : u ≤ 308) (pads : Pads n c u)
    (near : roundMagnitude (c * 10 ^ u) = m * 2 ^ e) : n.nearest = x := by
  obtain ⟨k, -, value, exponent⟩ := pads.zeros
  have few := pads.few
  rw [value] at few
  have places : k < 18 := by
    have power : 10 ^ k < 10 ^ 18 := lt_of_le_of_lt (Nat.le_mul_of_pos_left _ hc) few
    exact (Nat.pow_lt_pow_iff_right (by decide)).1 power
  have same : ((c * 10 ^ k : ℕ) : ℝ) * 10 ^ (u - k) = c * 10 ^ u := by
    rw [Nat.cast_mul, Nat.cast_pow, Nat.cast_ofNat, mul_assoc, ← zpow_natCast, ← zpow_add₀ (by norm_num),
      add_sub_cancel]
  rw [Numeral.nearest, sign, value, exponent]
  refine ofDecimal_eq hx (Nat.mul_pos hc (Nat.pow_pos (by decide))) (few.trans (by decide)) (by omega)
    (by omega) ?_
  rw [same]
  exact near

open Scalar Float.Model in
/-- Both zeros are written and read with their sign. -/
theorem nearest_of_zero {x : Float} {s : UnpackedFloat.Sign} (hx : x.toModel.unpack = .zero s) :
    Numeral.nearest ⟨isNegative s, ['0'], ['0'], none⟩ = x := by
  refine ofFloat_injective ?_
  rw [ofFloat_of_zero hx]
  cases s with
  | negative => exact ofFloat_of_zero (s := .negative) rfl
  | positive => exact ofFloat_of_zero (s := .positive) rfl

/-- The shortest decimal of a number has few digits: they and their zeros fit a binary64 number, with one
place behind the ones. -/
structure HasFewDigits (x : Float) : Prop where
  few : (shortest .even (Scalar.Parts.ofFloat x)).coefficient *
    10 ^ ((shortest .even (Scalar.Parts.ofFloat x)).exponent.toNat + 1) < 2 ^ 53
  low : -21 ≤ (shortest .even (Scalar.Parts.ofFloat x)).exponent

open Scalar Float.Model in
/-- **A finite number is written as a numeral that is read as this number**, and not as an integer.  The
numeral is short if the number has few digits. -/
theorem float_text {x : Float} (finite : x.isFinite = true) :
    ∃ n, NumeralText (Layout.json.text x).toList n ∧ n.nearest = x ∧
      (n.fraction ≠ [] ∨ n.exponent ≠ none) ∧ (HasFewDigits x → IsShort n) := by
  have text : (Layout.json.text x).toList = Layout.json.finite (Parts.ofFloat x) := by
    rw [Layout.text, if_pos finite, String.toList_ofList]
  have unpacked : x.toModel.unpack.isFinite = true := finite
  have fits := fits_unpack x
  rw [text, Layout.finite]
  cases hx : x.toModel.unpack with
  | infinity s =>
    rw [hx] at unpacked
    cases unpacked
  | notANumber =>
    rw [hx] at unpacked
    cases unpacked
  | zero s =>
    have zero := (pointed_text isWhole_zero isDigits_zero).withSign rfl (isNegative s)
    rw [ofFloat_of_zero hx]
    exact ⟨_, zero, nearest_of_zero hx, .inl (List.cons_ne_nil _ _), fun _ => isShort_zero.withSign _⟩
  | finite s m e hm =>
    rw [hx] at fits
    obtain ⟨short, least, long⟩ := fits.canonical
    obtain ⟨few, surrounds⟩ := shortest_surrounds .even (isNegative s) hm short least
    obtain ⟨some, low, high⟩ := exponent_of_surrounds surrounds hm short least fits.exponent_lt few
    obtain ⟨n, written, plain, pads⟩ :=
      positive_text ⟨isNegative s, m, e⟩ some (lt_of_le_of_lt few (by decide))
    have near := roundMagnitude_of_surrounds fits.canonical surrounds
    rw [ofFloat_of_unpack hx, if_neg hm.ne']
    refine ⟨_, written.withSign plain (isNegative s), ?_, pads.fractional, ?_⟩
    · exact nearest_of_pads hx rfl some low high ⟨pads.fractional, pads.few, pads.zeros⟩ near
    · intro digits
      obtain ⟨few, low⟩ := digits
      rw [ofFloat_of_unpack hx] at few low
      exact (pads.isShort some few low).withSign _

/-- **A finite number with few digits is read back**, even in steps. -/
theorem readsBack_of_hasFewDigits {x : Float} (finite : x.isFinite = true) (few : HasFewDigits x) :
    ReadsBack x := by
  obtain ⟨n, text, near, -, short⟩ := float_text finite
  rw [ReadsBack, Value.ofFloat, Value.print]
  exact floatText_of_short text (short few) near

end FleetMatch.Json
