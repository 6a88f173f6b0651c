import FleetMatch.Decimal.Layout
import Mathlib.Algebra.Group.Nat.Defs

/-!
# Runs of digits

What a numeral is worth, and what the numeral of a number looks like.

* `value_eq` — the value of a run of digits, as the library has it.
* `value_append`, `value_zeros` — runs after runs, and zeros.
* `value_digits`, `isDigit_of_mem_digits`, `head?_digits` — the numeral of a number has its value, consists
  of digits, and starts with a zero only for zero.
* `fitsInt64_iff`, `fitsInt64_toInt`, `toInt_ofInt_of_fits` — the integers of 64 bits.
-/

set_option autoImplicit false

namespace FleetMatch.Numeral

variable {c : Char} {cs ds : List Char} {n : Nat}

theorem value_eq (cs : List Char) : value cs = Nat.ofDigitChars 10 cs 0 := by
  rw [value, continued_eq_foldl, Nat.ofDigitChars_eq_foldl]
  rfl

/-- **A run of digits after another one.** -/
theorem value_append (cs ds : List Char) : value (cs ++ ds) = value cs * 10 ^ ds.length + value ds := by
  rw [value_eq, value_eq, value_eq, Nat.ofDigitChars_append, Nat.ofDigitChars_eq_ofDigitChars_zero,
    Nat.mul_comm]

theorem value_zeros (k : Nat) : value (Decimal.Layout.zeros k) = 0 := by
  rw [value_eq, Decimal.Layout.zeros, Nat.ofDigitChars_replicate_zero, Nat.mul_zero]

/-! ## Numerals of numbers -/

theorem value_digits (n : Nat) : value (digits n) = n := by
  rw [value_eq, digits, Nat.ofDigitChars_ten_toDigits]

theorem digits_ne_nil (n : Nat) : digits n ≠ [] := Nat.toDigits_ne_nil

theorem isDigit_of_mem_digits (h : c ∈ digits n) : isDigit c = true := by
  have digit := Nat.isDigit_of_mem_toDigits (by decide) (by decide) h
  rw [Char.isDigit, Bool.and_eq_true, decide_eq_true_eq, decide_eq_true_eq] at digit
  rw [isDigit, Bool.and_eq_true, decide_eq_true_eq, decide_eq_true_eq]
  exact digit

/-- The numeral of a positive number does not start with a zero. -/
theorem head?_digits (hn : 0 < n) : (digits n).head? ≠ some '0' := by
  induction n using Nat.base_induction 10 (by decide) with
  | single n small =>
    have nonzero : ∀ n < 10, 0 < n → n.digitChar ≠ '0' := by decide
    rw [digits, Nat.toDigits_of_lt_base small]
    intro first
    exact nonzero n small hn (Option.some.inj first)
  | digit n d small positive ih =>
    obtain ⟨first, rest, same⟩ := List.exists_cons_of_ne_nil (digits_ne_nil n)
    rw [digits, ← Nat.toDigits_append_toDigits (by decide) positive small]
    have ih := ih positive
    rw [digits] at same ih
    rw [same] at ih ⊢
    exact ih

/-! ## Integers of 64 bits -/

theorem fitsInt64_iff {i : Int} : fitsInt64 i = true ↔ -0x8000000000000000 ≤ i ∧ i < 0x8000000000000000 := by
  rw [fitsInt64, Bool.and_eq_true, decide_eq_true_eq, decide_eq_true_eq]

theorem fitsInt64_toInt (n : Int64) : fitsInt64 n.toInt = true := by
  have low := n.le_toInt
  have high := n.toInt_lt
  rw [fitsInt64_iff]
  omega

theorem toInt_ofInt_of_fits {i : Int} (fits : fitsInt64 i = true) : (Int64.ofInt i).toInt = i := by
  obtain ⟨low, high⟩ := fitsInt64_iff.1 fits
  exact Int64.toInt_ofInt_of_le (by omega) (by omega)

end FleetMatch.Numeral
