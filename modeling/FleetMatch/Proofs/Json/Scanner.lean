import FleetMatch.Proofs.Json.Grammar

/-!
# Scanning what the grammar allows

The lexical part of the reader takes in what the grammar calls a gap, a number or the body of a string,
and leaves the text behind it, whatever that is.  Only a number needs to know what follows: digits, a
point or an exponent would go on with it.

* `Yields`: what is read and what is left, without the fact that it is shorter.
* `Stops`: a text that does not go on with a number.
* `mark_comma`, `mark_close`, `punctuation_gap` — marks after white space.
* `stringTail_spelled`, `stringTail_body` — strings that are read, and strings that are skipped.
* `numeral_text` — numbers.
-/

set_option autoImplicit false

namespace FleetMatch.Json

/-- A value is read from the start of a text, and `rest` is left. -/
def Yields {α : Type} {s : List Char} (outcome : Except Fault (Read α s)) (value : α)
    (rest : List Char) : Prop :=
  ∃ shorter, outcome = .ok ⟨value, rest, shorter⟩

/-! ## White space -/

section

variable {gap rest : List Char} {c : Char}

theorem IsGap.nil : IsGap [] := by
  intro c hc
  cases hc

theorem skipSpace_gap (h : IsGap gap) (s : List Char) : skipSpace (gap ++ s) = skipSpace s := by
  induction gap with
  | nil => rfl
  | cons c gap ih =>
    have space := h c List.mem_cons_self
    have tail : IsGap gap := fun d hd => h d (List.mem_cons_of_mem c hd)
    rw [List.cons_append, skipSpace, List.dropWhile_cons_of_pos space]
    exact ih tail

theorem skipSpace_cons (h : isSpace c = false) (s : List Char) : skipSpace (c :: s) = c :: s := by
  rw [skipSpace, List.dropWhile_cons_of_neg (by simp [h])]

/-- After white space stands the first character that is none. -/
theorem skipSpace_gap_cons (h : IsGap gap) (hc : isSpace c = false) (s : List Char) :
    skipSpace (gap ++ c :: s) = c :: s := by
  rw [skipSpace_gap h, skipSpace_cons hc]

theorem mark_comma (h : IsGap gap) (closing : Char) :
    Yields (mark closing (gap ++ ',' :: rest)) .comma rest := by
  have next := skipSpace_gap_cons h (by decide : isSpace ',' = false) rest
  unfold mark
  split
  · rename_i empty
    cases next.symm.trans empty
  · rename_i found
    cases next.symm.trans found
    exact ⟨_, rfl⟩

theorem mark_close (h : IsGap gap) (space : isSpace c = false) (comma : c ≠ ',') :
    Yields (mark c (gap ++ c :: rest)) .close rest := by
  have next := skipSpace_gap_cons h space rest
  unfold mark
  split
  · rename_i empty
    cases next.symm.trans empty
  · rename_i found
    cases next.symm.trans found
    rw [if_neg comma, if_pos rfl]
    exact ⟨_, rfl⟩

theorem punctuation_gap (h : IsGap gap) (space : isSpace c = false) :
    Yields (punctuation c (gap ++ c :: rest)) () rest := by
  have next := skipSpace_gap_cons h space rest
  unfold punctuation
  split
  · rename_i empty
    cases next.symm.trans empty
  · rename_i found
    cases next.symm.trans found
    rw [if_pos rfl]
    exact ⟨_, rfl⟩

end

/-! ## Strings -/

section

variable {t s rest : List Char} {care : Care} {rounding : Rounding}

theorem stringTail_quote (care : Care) (rest : List Char) :
    Yields (stringTail care ('"' :: rest)) [] rest := by
  rw [stringTail]
  exact ⟨_, rfl⟩

theorem stringTail_plain {c : Char} (quote : c ≠ '"') (backslash : c ≠ '\\') (printable : 0x20 ≤ c.toNat)
    (h : Yields (stringTail care t) s rest) : Yields (stringTail care (c :: t)) (c :: s) rest := by
  obtain ⟨shorter, h⟩ := h
  rw [stringTail.eq_4 care c t quote backslash, if_neg (by omega), h]
  exact ⟨_, rfl⟩

theorem stringTail_escape {c : Char} {after : List Char} (escaped : escape care t = .ok (c, after))
    (h : Yields (stringTail care after) s rest) :
    Yields (stringTail care ('\\' :: t)) (c :: s) rest := by
  obtain ⟨shorter, h⟩ := h
  rw [stringTail]
  split
  · rename_i refused
    cases escaped.symm.trans refused
  · rename_i taken
    cases escaped.symm.trans taken
    rw [h]
    exact ⟨_, rfl⟩

theorem escape_short {c d : Char} (h : shortEscape? c = some d) (rest : List Char) :
    escape care (c :: rest) = .ok (d, rest) := by
  have unit : c ≠ 'u' := by
    rintro rfl
    cases h
  unfold escape
  split
  · contradiction
  · rename_i heq
    cases heq
    contradiction
  · rename_i heq
    cases heq
    rw [h]

theorem escape_unit {a b c d : Char} {n : Nat} (h : hexValue? a b c d = some n)
    (alone : n < 0xD800 ∨ 0xDFFF < n) (rest : List Char) :
    escape (.full rounding) ('u' :: a :: b :: c :: d :: rest) = .ok (Char.ofNat n, rest) := by
  have low : (0xDC00 ≤ n && n ≤ 0xDFFF) = false := by
    rw [Bool.and_eq_false_iff, decide_eq_false_iff_not, decide_eq_false_iff_not]
    omega
  have high : (0xD800 ≤ n && n ≤ 0xDBFF) = false := by
    rw [Bool.and_eq_false_iff, decide_eq_false_iff_not, decide_eq_false_iff_not]
    omega
  simp [escape, unicodeEscape, hexFour, h, low, high]

theorem escape_unit_skipped {a b c d : Char} {n : Nat} (h : hexValue? a b c d = some n)
    (rest : List Char) : escape .skipped ('u' :: a :: b :: c :: d :: rest) = .ok ('\uFFFD', rest) := by
  simp [escape, unicodeEscape, hexFour, h]

theorem escape_pair {a b c d a' b' c' d' : Char} {high low : Nat} (hh : hexValue? a b c d = some high)
    (high₁ : 0xD800 ≤ high) (high₂ : high ≤ 0xDBFF) (hl : hexValue? a' b' c' d' = some low)
    (low₁ : 0xDC00 ≤ low) (low₂ : low ≤ 0xDFFF) (rest : List Char) :
    escape (.full rounding) ('u' :: a :: b :: c :: d :: '\\' :: 'u' :: a' :: b' :: c' :: d' :: rest) =
      .ok (Char.ofNat ((high - 0xD800) * 1024 + (low - 0xDC00) + 0x10000), rest) := by
  have first : (0xDC00 ≤ high && high ≤ 0xDFFF) = false := by
    rw [Bool.and_eq_false_iff, decide_eq_false_iff_not, decide_eq_false_iff_not]
    omega
  simp [escape, unicodeEscape, hexFour, hh, first, high₁, high₂, lowSurrogate, hl, low₁, low₂]

/-- **A body of a string is read as the characters that it stands for.** -/
theorem stringTail_spelled (h : Spelled t s) (rest : List Char) :
    Yields (stringTail (.full rounding) (t ++ '"' :: rest)) s rest := by
  induction h with
  | nil => exact stringTail_quote (.full rounding) rest
  | plain quote backslash printable _ ih => exact stringTail_plain quote backslash printable ih
  | short escaped _ ih => exact stringTail_escape (escape_short escaped _) ih
  | unit value alone _ ih => exact stringTail_escape (escape_unit value alone _) ih
  | pair high high₁ high₂ low low₁ low₂ _ ih =>
    exact stringTail_escape (escape_pair high high₁ high₂ low low₁ low₂ _) ih

/-- **Any body of a string can be skipped.** -/
theorem stringTail_body (h : StringBody t) (rest : List Char) :
    ∃ s, Yields (stringTail .skipped (t ++ '"' :: rest)) s rest := by
  induction h with
  | nil => exact ⟨_, stringTail_quote .skipped rest⟩
  | plain quote backslash printable _ ih =>
    obtain ⟨s, ih⟩ := ih
    exact ⟨_, stringTail_plain quote backslash printable ih⟩
  | short escaped _ ih =>
    obtain ⟨s, ih⟩ := ih
    exact ⟨_, stringTail_escape (escape_short escaped _) ih⟩
  | unit value _ ih =>
    obtain ⟨s, ih⟩ := ih
    exact ⟨_, stringTail_escape (escape_unit_skipped value _) ih⟩

end

/-! ## Numbers -/

/-- A text that does not go on with a number. -/
def Stops (rest : List Char) : Prop :=
  ∀ c ∈ rest.head?, FleetMatch.Numeral.isDigit c = false ∧ c ≠ '.' ∧ c ≠ 'e' ∧ c ≠ 'E'

section

variable {t ds rest : List Char} {care : Care}

theorem Stops.nil : Stops [] := by
  intro c hc
  cases hc

theorem Stops.cons {c : Char} (h : FleetMatch.Numeral.isDigit c = false ∧ c ≠ '.' ∧ c ≠ 'e' ∧ c ≠ 'E')
    (rest : List Char) : Stops (c :: rest) := by
  intro d hd
  cases hd
  exact h

theorem Stops.gap {gap : List Char} (h : IsGap gap) (stops : Stops rest) : Stops (gap ++ rest) := by
  cases gap with
  | nil => exact stops
  | cons c gap =>
    have space := h c List.mem_cons_self
    simp only [isSpace, Bool.or_eq_true, beq_iff_eq] at space
    refine Stops.cons ?_ _
    rcases space with ((rfl | rfl) | rfl) | rfl <;> decide

/-- Digits are read up to the first character that is none. -/
theorem someDigits_text (h : IsDigits ds)
    (ends : ∀ c ∈ rest.head?, FleetMatch.Numeral.isDigit c = false) :
    someDigits care (ds ++ rest) = .ok (ds, rest) := by
  obtain ⟨nonempty, digits⟩ := h
  obtain ⟨d, ds, rfl⟩ := List.exists_cons_of_ne_nil nonempty
  have stop : rest.takeWhile FleetMatch.Numeral.isDigit = [] ∧
      rest.dropWhile FleetMatch.Numeral.isDigit = rest := by
    cases rest with
    | nil => exact ⟨rfl, rfl⟩
    | cons c rest =>
      have : FleetMatch.Numeral.isDigit c = false := ends c rfl
      simp [this]
  rw [List.cons_append, someDigits, if_pos (digits d List.mem_cons_self), ← List.cons_append,
    List.takeWhile_append_of_pos digits, List.dropWhile_append_of_pos digits, stop.1, stop.2,
    List.append_nil]

theorem wholeDigits_text (h : IsWhole ds)
    (ends : ∀ c ∈ rest.head?, FleetMatch.Numeral.isDigit c = false) :
    wholeDigits care (ds ++ rest) = .ok (ds, rest) := by
  obtain ⟨digits, zero⟩ := h
  have single : (ds.head? = some '0' && 1 < ds.length : Bool) = false := by
    by_cases first : ds.head? = some '0'
    · rw [zero first]
      rfl
    · simp [first]
  rw [wholeDigits, someDigits_text digits ends]
  simp only [single, Bool.false_eq_true, if_false]

theorem fractionDigits_text (h : FractionText t ds)
    (ends : ∀ c ∈ rest.head?, FleetMatch.Numeral.isDigit c = false ∧ c ≠ '.') :
    fractionDigits care (t ++ rest) = .ok (ds, rest) := by
  cases h with
  | absent =>
    unfold fractionDigits
    split
    · rename_i heq
      exact absurd rfl (ends '.' (by rw [List.nil_append] at heq; rw [heq]; rfl)).2
    · rfl
  | point digits => exact someDigits_text digits fun c hc => (ends c hc).1

theorem exponentPart_text {e : Option Int} (h : ExponentText t e) (stops : Stops rest) :
    exponentPart care (t ++ rest) = .ok (e, rest) := by
  have ends : ∀ c ∈ rest.head?, FleetMatch.Numeral.isDigit c = false := fun c hc => (stops c hc).1
  have marker : ∀ {e : Char}, e = 'e' ∨ e = 'E' → (e = 'e' || e = 'E' : Bool) = true := by
    rintro e (rfl | rfl) <;> rfl
  cases h with
  | absent =>
    cases rest with
    | nil => rfl
    | cons c rest =>
      obtain ⟨-, -, lower, upper⟩ := stops c rfl
      rw [List.nil_append, exponentPart]
      simp [lower, upper]
  | @unsigned e ds he digits =>
    have none : sign (ds ++ rest) = (false, ds ++ rest) := by
      obtain ⟨nonempty, all⟩ := digits
      obtain ⟨d, ds, rfl⟩ := List.exists_cons_of_ne_nil nonempty
      have digit := all d List.mem_cons_self
      unfold sign
      split
      · rename_i heq
        cases heq
        cases digit
      · rename_i heq
        cases heq
        cases digit
      · rfl
    rw [List.cons_append, exponentPart, if_pos (marker he), none]
    simp only [someDigits_text digits ends, Bool.false_eq_true, if_false]
  | @plus e ds he digits =>
    rw [List.cons_append, exponentPart, if_pos (marker he), List.cons_append]
    simp only [sign, someDigits_text digits ends, Bool.false_eq_true, if_false]
  | @minus e ds he digits =>
    rw [List.cons_append, exponentPart, if_pos (marker he), List.cons_append]
    simp only [sign, someDigits_text digits ends, if_true]

/-- What may follow the digits before the point: a fraction, an exponent or something else. -/
theorem head?_fraction_append {f e : List Char} {fraction : List Char} {exponent : Option Int}
    (hf : FractionText f fraction) (he : ExponentText e exponent) (stops : Stops rest) :
    ∀ c ∈ (f ++ (e ++ rest)).head?, FleetMatch.Numeral.isDigit c = false := by
  cases hf with
  | point _ =>
    intro c hc
    cases hc
    rfl
  | absent =>
    cases he with
    | absent => exact fun c hc => (stops c hc).1
    | unsigned h _ | plus h _ | minus h _ =>
      intro c hc
      cases hc
      rcases h with rfl | rfl <;> rfl

theorem head?_exponent_append {e : List Char} {exponent : Option Int} (he : ExponentText e exponent)
    (stops : Stops rest) :
    ∀ c ∈ (e ++ rest).head?, FleetMatch.Numeral.isDigit c = false ∧ c ≠ '.' := by
  cases he with
  | absent => exact fun c hc => ⟨(stops c hc).1, (stops c hc).2.1⟩
  | unsigned h _ | plus h _ | minus h _ =>
    intro c hc
    cases hc
    rcases h with rfl | rfl <;> decide

/-- **A number is read in its parts.** -/
theorem numeral_text {n : Numeral} (h : NumeralText t n) (stops : Stops rest) :
    numeral care (t ++ rest) = .ok (n, rest) := by
  obtain ⟨whole, fraction, exponent⟩ := h
  rename_i f e
  have whole' : wholeDigits care (n.whole ++ (f ++ (e ++ rest))) = .ok (n.whole, f ++ (e ++ rest)) :=
    wholeDigits_text whole (head?_fraction_append fraction exponent stops)
  have fraction' : fractionDigits care (f ++ (e ++ rest)) = .ok (n.fraction, e ++ rest) :=
    fractionDigits_text fraction (head?_exponent_append exponent stops)
  have exponent' : exponentPart care (e ++ rest) = .ok (n.exponent, rest) :=
    exponentPart_text exponent stops
  obtain ⟨⟨nonempty, digits⟩, -⟩ := whole
  obtain ⟨negative, w, _, _⟩ := n
  unfold numeral
  cases negative with
  | true =>
    simp only [List.append_assoc, if_true, List.cons_append, List.nil_append, whole', fraction', exponent',
      bind, Except.bind, pure, Except.pure]
  | false =>
    obtain ⟨d, w, rfl⟩ := List.exists_cons_of_ne_nil nonempty
    have digit := digits d List.mem_cons_self
    have minus : d ≠ '-' := by
      rintro rfl
      cases digit
    simp only [List.append_assoc, Bool.false_eq_true, if_false, List.nil_append, List.cons_append]
      at whole' ⊢
    split
    · rename_i first
      exact absurd (List.cons.inj first).1 minus
    · simp only [whole', fraction', exponent', bind, Except.bind, pure, Except.pure]

end

end FleetMatch.Json
