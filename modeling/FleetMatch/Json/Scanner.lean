import FleetMatch.Decimal.Literal
import FleetMatch.Decimal.Stepwise
import FleetMatch.Text.Utf8

/-!
# Scanning JSON text

The lexical part of the JSON reader: white space, literal words, numbers and strings.  Every scan
returns what it read together with the rest of the text and the fact that the rest is shorter.

The first thing that goes wrong is the answer, and there are three kinds of it (`Fault`): the text
is not JSON, it ends too early, or it is JSON so far but not the value that is wanted.

A number that is read becomes the nearest binary64 number, or one that is found in steps (`Rounding`).
Numbers and strings inside a skipped value are only delimited, not read (`Care.skipped`): their
range and the pairing of their surrogates are not looked at.
-/

namespace FleetMatch.Json

/-- Why a text could not be read. -/
inductive Fault where
  /-- The text is not JSON. -/
  | malformed
  /-- The text ends inside a value. -/
  | truncated
  /-- The text is JSON so far, but not the value that is wanted. -/
  | mismatch (message : String)
  deriving DecidableEq, Repr

/-- Something read from the start of a text, and what is left of the text. -/
structure Read (α : Type) (s : List Char) where
  value : α
  rest : List Char
  shorter : rest.length < s.length

/-- What was read, turned into something else, with one more character at the start of the text. -/
def Read.behind {α β : Type} {s : List Char} (c : Char) (f : α → β) (r : Read α s) :
    Read β (c :: s) :=
  ⟨f r.value, r.rest, Nat.lt_succ_of_lt r.shorter⟩

/-- A function that reads something from the start of a text. -/
abbrev Reader (α : Type) := (s : List Char) → Except Fault (Read α s)

/-- How a written number becomes a binary64 number. -/
inductive Rounding where
  /-- It becomes the nearest one. -/
  | nearest
  /-- It becomes the one that is found in steps, which is quicker. -/
  | stepwise
  deriving DecidableEq, Repr

/-- Whether a value is read or only skipped. -/
inductive Care where
  | full (rounding : Rounding)
  | skipped
  deriving DecidableEq, Repr

/-- JSON knows four white space characters. -/
def isSpace (c : Char) : Bool := c == ' ' || c == '\t' || c == '\n' || c == '\r'

/-- The text after its leading white space. -/
def skipSpace (s : List Char) : List Char := s.dropWhile isSpace

theorem length_skipSpace_le (s : List Char) : (skipSpace s).length ≤ s.length :=
  (List.dropWhile_suffix isSpace).length_le

theorem length_lt_of_skipSpace {s r : List Char} {c : Char} (h : skipSpace s = c :: r) :
    r.length < s.length := by
  have := length_skipSpace_le s
  rw [h, List.length_cons] at this
  omega

/-- The rest of a literal word, such as `rue` after a `t`. -/
def word : List Char → List Char → Except Fault (List Char)
  | [], s => .ok s
  | _ :: _, [] => .error .truncated
  | expected :: word', c :: s => if c = expected then word word' s else .error .malformed

theorem length_word_le : ∀ {w s r : List Char}, word w s = .ok r → r.length ≤ s.length
  | [], s, r, h => by cases h; exact Nat.le_refl _
  | _ :: _, [], r, h => by simp [word] at h
  | e :: w, c :: s, r, h => by
    simp only [word] at h
    split at h
    · exact Nat.le_succ_of_le (length_word_le h)
    · cases h

/-! ## Numbers -/

/-- A number as JSON text distinguishes them: whole numbers of 64 bits stay whole. -/
inductive Number where
  | int (n : Int)
  | float (x : Float)
  deriving Repr

/-- The number as binary64; a whole number becomes the nearest one. -/
def Number.toFloat : Number → Float
  | .int n => Decimal.ofDecimal (decide (n < 0)) n.natAbs 0
  | .float x => x

/-- The parts of a written number. -/
structure Numeral where
  negative : Bool
  whole : List Char
  /-- The digits after the point; none if there is no point. -/
  fraction : List Char
  /-- The exponent, if one is written. -/
  exponent : Option Int
  deriving Repr

/-- The binary64 number for a numeral, unless this is beyond the finite range. -/
def Numeral.float? (rounding : Rounding) (n : Numeral) : Option Float :=
  match rounding with
  | .nearest =>
    let nearest :=
      Decimal.ofDecimal n.negative (FleetMatch.Numeral.value (n.whole ++ n.fraction))
        (n.exponent.getD 0 - n.fraction.length)
    if nearest.isFinite then some nearest else none
  | .stepwise => Decimal.stepwise? n.negative n.whole n.fraction (n.exponent.getD 0)

/-- The value of a numeral.  Whole numbers that fit 64 bits, with a sign bit if there is a sign,
stay whole, except for a negative zero.  A value beyond the binary64 range is malformed. -/
def Numeral.number (rounding : Rounding) (n : Numeral) : Except Fault Number :=
  let asFloat : Except Fault Number :=
    match n.float? rounding with
    | some x => .ok (.float x)
    | none => .error .malformed
  if n.fraction.isEmpty && n.exponent.isNone then
    let magnitude := FleetMatch.Numeral.value n.whole
    if n.negative then
      if 0 < magnitude && magnitude ≤ 0x8000000000000000 then .ok (.int (-(magnitude : Int))) else asFloat
    else if magnitude < UInt64.size then .ok (.int magnitude)
    else asFloat
  else asFloat

/-- One or more digits; where there is none, the text ends too early or is malformed.  A skipped
number that is cut off counts as malformed. -/
def someDigits (care : Care) (s : List Char) : Except Fault (List Char × List Char) :=
  match s with
  | [] => .error (if care = .skipped then .malformed else .truncated)
  | c :: _ =>
    if FleetMatch.Numeral.isDigit c then
      .ok (s.takeWhile FleetMatch.Numeral.isDigit, s.dropWhile FleetMatch.Numeral.isDigit)
    else .error .malformed

/-- The digits before the point: a single zero, or digits that do not start with zero. -/
def wholeDigits (care : Care) (s : List Char) : Except Fault (List Char × List Char) :=
  match someDigits care s with
  | .error e => .error e
  | .ok (digits, rest) =>
    if digits.head? = some '0' && 1 < digits.length then .error .malformed else .ok (digits, rest)

/-- The digits after the point, if there is one. -/
def fractionDigits (care : Care) : List Char → Except Fault (List Char × List Char)
  | '.' :: s => someDigits care s
  | s => .ok ([], s)

/-- An optional sign: whether it is a minus, and the text after it. -/
def sign : List Char → Bool × List Char
  | '-' :: s => (true, s)
  | '+' :: s => (false, s)
  | s => (false, s)

/-- The exponent after an `e`, if there is one. -/
def exponentPart (care : Care) : List Char → Except Fault (Option Int × List Char)
  | [] => .ok (none, [])
  | c :: s =>
    if c = 'e' || c = 'E' then
      match someDigits care (sign s).2 with
      | .error e => .error e
      | .ok (digits, rest) =>
        let magnitude : Int := FleetMatch.Numeral.value digits
        .ok (some (if (sign s).1 then -magnitude else magnitude), rest)
    else .ok (none, c :: s)

/-- A written number; `s` starts with its sign or first digit. -/
def numeral (care : Care) (s : List Char) : Except Fault (Numeral × List Char) := do
  let (negative, s) := match s with
    | '-' :: s => (true, s)
    | s => (false, s)
  let (whole, s) ← wholeDigits care s
  let (fraction, s) ← fractionDigits care s
  let (exponent, s) ← exponentPart care s
  return (⟨negative, whole, fraction, exponent⟩, s)

theorem length_someDigits_lt {care : Care} {s ds r : List Char}
    (h : someDigits care s = .ok (ds, r)) : r.length < s.length := by
  unfold someDigits at h
  split at h
  · cases h
  · rename_i c t
    split at h
    · rename_i hc
      injection h with h
      obtain ⟨-, rfl⟩ := Prod.mk.inj h
      rw [List.dropWhile_cons_of_pos hc, List.length_cons]
      exact Nat.lt_succ_of_le (List.dropWhile_suffix _).length_le
    · cases h

theorem length_wholeDigits_lt {care : Care} {s ds r : List Char}
    (h : wholeDigits care s = .ok (ds, r)) : r.length < s.length := by
  unfold wholeDigits at h
  split at h
  · cases h
  · rename_i heq
    split at h
    · cases h
    · injection h with h
      obtain ⟨-, rfl⟩ := Prod.mk.inj h
      exact length_someDigits_lt heq

theorem length_fractionDigits_le {care : Care} {s ds r : List Char}
    (h : fractionDigits care s = .ok (ds, r)) : r.length ≤ s.length := by
  unfold fractionDigits at h
  split at h
  · exact Nat.le_succ_of_le (Nat.le_of_lt (length_someDigits_lt h))
  · injection h with h
    obtain ⟨-, rfl⟩ := Prod.mk.inj h
    exact Nat.le_refl _

theorem length_sign_le (s : List Char) : (sign s).2.length ≤ s.length := by
  unfold sign
  split <;> simp

theorem length_exponentPart_le {care : Care} {s r : List Char} {e : Option Int}
    (h : exponentPart care s = .ok (e, r)) : r.length ≤ s.length := by
  unfold exponentPart at h
  split at h
  · injection h with h
    obtain ⟨-, rfl⟩ := Prod.mk.inj h
    exact Nat.le_refl _
  · rename_i c t
    split at h
    · split at h
      · cases h
      · rename_i ds r' heq
        injection h with h
        obtain ⟨-, rfl⟩ := Prod.mk.inj h
        have h1 := length_someDigits_lt heq
        have h2 := length_sign_le t
        simp only [List.length_cons]
        omega
    · injection h with h
      obtain ⟨-, rfl⟩ := Prod.mk.inj h
      exact Nat.le_refl _

theorem length_numeral_lt {care : Care} {s r : List Char} {n : Numeral}
    (h : numeral care s = .ok (n, r)) : r.length < s.length := by
  have key : ∀ {neg : Bool} {t : List Char}, t.length ≤ s.length →
      (do
        let (whole, s) ← wholeDigits care t
        let (fraction, s) ← fractionDigits care s
        let (exponent, s) ← exponentPart care s
        return (⟨neg, whole, fraction, exponent⟩, s) : Except Fault (Numeral × List Char)) =
        .ok (n, r) → r.length < s.length := by
    intro neg t ht h
    cases h1 : wholeDigits care t with
    | error e => rw [h1] at h; cases h
    | ok p1 =>
      rw [h1] at h
      obtain ⟨w, r1⟩ := p1
      cases h2 : fractionDigits care r1 with
      | error e => simp only [bind, Except.bind, h2] at h; cases h
      | ok p2 =>
        obtain ⟨f, r2⟩ := p2
        cases h3 : exponentPart care r2 with
        | error e => simp only [bind, Except.bind, h2, h3] at h; cases h
        | ok p3 =>
          obtain ⟨e, r3⟩ := p3
          simp only [bind, Except.bind, h2, h3, pure, Except.pure] at h
          injection h with h
          obtain ⟨-, rfl⟩ := Prod.mk.inj h
          have a1 := length_wholeDigits_lt h1
          have a2 := length_fractionDigits_le h2
          have a3 := length_exponentPart_le h3
          omega
  unfold numeral at h
  split at h
  rename_i heq
  split at heq <;> obtain ⟨rfl, rfl⟩ := Prod.mk.inj heq
  · exact key (by simp) h
  · exact key (Nat.le_refl _) h

/-! ## Strings -/

/-- The value of a hexadecimal digit. -/
def hexDigit? (c : Char) : Option Nat :=
  if '0' ≤ c && c ≤ '9' then some (c.toNat - 48)
  else if 'a' ≤ c && c ≤ 'f' then some (c.toNat - 87)
  else if 'A' ≤ c && c ≤ 'F' then some (c.toNat - 55)
  else none

/-- The value of four hexadecimal digits. -/
def hexValue? (a b c d : Char) : Option Nat := do
  let a ← hexDigit? a
  let b ← hexDigit? b
  let c ← hexDigit? c
  let d ← hexDigit? d
  return a * 4096 + b * 256 + c * 16 + d

/-- What is wrong where four hexadecimal digits are missing.  They are taken as four bytes: a text
with fewer bytes left ends too early, whatever they are. -/
def hexFault (s : List Char) : Fault := if 4 ≤ Text.Utf8.size s then .malformed else .truncated

/-- Four hexadecimal digits. -/
def hexFour (s : List Char) : Except Fault (Nat × List Char) :=
  match s with
  | a :: b :: c :: d :: rest =>
    match hexValue? a b c d with
    | some n => .ok (n, rest)
    | none => .error (hexFault s)
  | _ => .error (hexFault s)

theorem length_hexFour_lt {s r : List Char} {n : Nat} (h : hexFour s = .ok (n, r)) :
    r.length < s.length := by
  unfold hexFour at h
  split at h
  · split at h
    · injection h with h
      obtain ⟨-, rfl⟩ := Prod.mk.inj h
      simp only [List.length_cons]
      omega
    · cases h
  · cases h

/-- The second half of a surrogate pair, after the first half `high`. -/
def lowSurrogate (high : Nat) (s : List Char) : Except Fault (Char × List Char) :=
  match s with
  | [] => .error .truncated
  | '\\' :: [] => .error .truncated
  | '\\' :: 'u' :: s =>
    match hexFour s with
    | .error e => .error e
    | .ok (n, rest) =>
      if 0xDC00 ≤ n && n ≤ 0xDFFF then
        .ok (Char.ofNat ((high - 0xD800) * 1024 + (n - 0xDC00) + 0x10000), rest)
      else .error .malformed
  | _ => .error .malformed

theorem length_lowSurrogate_lt {high : Nat} {s r : List Char} {c : Char}
    (h : lowSurrogate high s = .ok (c, r)) : r.length < s.length := by
  unfold lowSurrogate at h
  split at h
  · cases h
  · cases h
  · split at h
    · cases h
    · rename_i heq
      split at h
      · injection h with h
        obtain ⟨-, rfl⟩ := Prod.mk.inj h
        have := length_hexFour_lt heq
        simp only [List.length_cons]
        omega
      · cases h
  · cases h

/-- The character of an escape with a code unit.  Surrogates come in pairs, unless they are
skipped. -/
def unicodeEscape (care : Care) (s : List Char) : Except Fault (Char × List Char) :=
  match hexFour s with
  | .error e => .error e
  | .ok (n, rest) =>
    if care = .skipped then .ok ('\uFFFD', rest)
    else if 0xDC00 ≤ n && n ≤ 0xDFFF then .error .malformed
    else if 0xD800 ≤ n && n ≤ 0xDBFF then lowSurrogate n rest
    else .ok (Char.ofNat n, rest)

theorem length_unicodeEscape_lt {care : Care} {s r : List Char} {c : Char}
    (h : unicodeEscape care s = .ok (c, r)) : r.length < s.length := by
  unfold unicodeEscape at h
  split at h
  · cases h
  · rename_i heq
    have h1 := length_hexFour_lt heq
    split at h
    · injection h with h
      obtain ⟨-, rfl⟩ := Prod.mk.inj h
      exact h1
    · split at h
      · cases h
      · split at h
        · exact Nat.lt_trans (length_lowSurrogate_lt h) h1
        · injection h with h
          obtain ⟨-, rfl⟩ := Prod.mk.inj h
          exact h1

/-- The character that a short escape stands for. -/
def shortEscape? : Char → Option Char
  | '"' => some '"'
  | '\\' => some '\\'
  | '/' => some '/'
  | 'b' => some '\x08'
  | 'f' => some '\x0c'
  | 'n' => some '\n'
  | 'r' => some '\r'
  | 't' => some '\t'
  | _ => none

/-- The character of an escape, after the backslash. -/
def escape (care : Care) (s : List Char) : Except Fault (Char × List Char) :=
  match s with
  | [] => .error .truncated
  | 'u' :: rest => unicodeEscape care rest
  | c :: rest =>
    match shortEscape? c with
    | some d => .ok (d, rest)
    | none => .error .malformed

theorem length_escape_lt {care : Care} {s r : List Char} {c : Char}
    (h : escape care s = .ok (c, r)) : r.length < s.length := by
  unfold escape at h
  split at h
  · cases h
  · exact Nat.lt_succ_of_lt (length_unicodeEscape_lt h)
  · split at h
    · injection h with h
      obtain ⟨-, rfl⟩ := Prod.mk.inj h
      simp
    · cases h

/-- The characters of a string, after its opening quote; the closing quote is read too. -/
def stringTail (care : Care) (s : List Char) : Except Fault (Read (List Char) s) :=
  match s with
  | [] => .error .truncated
  | '"' :: rest => .ok ⟨[], rest, by simp⟩
  | '\\' :: rest =>
    match h : escape care rest with
    | .error e => .error e
    | .ok (c, after) =>
      have := length_escape_lt h
      match stringTail care after with
      | .error e => .error e
      | .ok r => .ok ⟨c :: r.value, r.rest, by have := r.shorter; simp only [List.length_cons]; omega⟩
  | c :: rest =>
    if c.toNat < 0x20 then .error .malformed
    else
      match stringTail care rest with
      | .error e => .error e
      | .ok r => .ok (r.behind c (c :: ·))
termination_by s.length

end FleetMatch.Json
