import FleetMatch.Json.Printer

/-!
# The grammar of JSON texts

What counts as JSON, said without any reader.  Numbers and strings come with what they stand for; of all
other values nothing is said but that they are well-formed, which is all that a reader may ask of a value
that it skips.

* `IsGap`: white space.
* `NumeralText`: a number and its parts.
* `FloatText`, `IntegerText`: the texts that are taken for a binary64 number, and those of an integer.
* `StringBody`, `Spelled`: what may stand between two quotes, and the characters it stands for.  A body
  may hold halves of surrogate pairs; these stand for no character.
* `IsText`: values, items, members and lists of them.
-/

set_option autoImplicit false

namespace FleetMatch.Json

/-- White space, if only none. -/
def IsGap (t : List Char) : Prop := ∀ c ∈ t, isSpace c = true

/-! ## Numbers -/

/-- One or more digits. -/
def IsDigits (t : List Char) : Prop := t ≠ [] ∧ ∀ c ∈ t, FleetMatch.Numeral.isDigit c = true

/-- The digits before the point: they start with a zero only if there is no other digit. -/
def IsWhole (t : List Char) : Prop := IsDigits t ∧ (t.head? = some '0' → t = ['0'])

/-- Nothing, or a point and digits. -/
inductive FractionText : List Char → List Char → Prop
  | absent : FractionText [] []
  | point {digits : List Char} : IsDigits digits → FractionText ('.' :: digits) digits

/-- Nothing, or an exponent with or without a sign. -/
inductive ExponentText : List Char → Option Int → Prop
  | absent : ExponentText [] none
  | unsigned {e : Char} {digits : List Char} : e = 'e' ∨ e = 'E' → IsDigits digits →
      ExponentText (e :: digits) (some (FleetMatch.Numeral.value digits))
  | plus {e : Char} {digits : List Char} : e = 'e' ∨ e = 'E' → IsDigits digits →
      ExponentText (e :: '+' :: digits) (some (FleetMatch.Numeral.value digits))
  | minus {e : Char} {digits : List Char} : e = 'e' ∨ e = 'E' → IsDigits digits →
      ExponentText (e :: '-' :: digits) (some (-(FleetMatch.Numeral.value digits : Int)))

/-- The text of a number. -/
inductive NumeralText : List Char → Numeral → Prop
  | intro {n : Numeral} {fraction exponent : List Char} : IsWhole n.whole →
      FractionText fraction n.fraction → ExponentText exponent n.exponent →
      NumeralText ((if n.negative then ['-'] else []) ++ (n.whole ++ (fraction ++ exponent))) n

/-- The binary64 number nearest to the decimal that is written. -/
def Numeral.nearest (n : Numeral) : Float :=
  Decimal.ofDecimal n.negative (FleetMatch.Numeral.value (n.whole ++ n.fraction))
    (n.exponent.getD 0 - n.fraction.length)

/-- The text of a number that is taken for the binary64 number `x`. -/
def FloatText (rounding : Rounding) (t : List Char) (x : Float) : Prop :=
  ∃ n, NumeralText t n ∧ ∃ m, n.number rounding = .ok m ∧ m.toFloat = x

/-- What is written for the number is taken for the number again, even if it is read in steps. -/
def ReadsBack (x : Float) : Prop := FloatText .stepwise (Value.ofFloat x).print x

/-- The text of an integer: digits, with a minus before those of a negative one. -/
inductive IntegerText : List Char → Int → Prop
  | natural {digits : List Char} : IsWhole digits →
      IntegerText digits (FleetMatch.Numeral.value digits)
  | negative {digits : List Char} : IsWhole digits → 0 < FleetMatch.Numeral.value digits →
      IntegerText ('-' :: digits) (-(FleetMatch.Numeral.value digits : Int))

/-! ## Strings -/

/-- What may stand between the quotes of a string.  Any code unit may be written as an escape. -/
inductive StringBody : List Char → Prop
  | nil : StringBody []
  | plain {c : Char} {t : List Char} : c ≠ '"' → c ≠ '\\' → 0x20 ≤ c.toNat → StringBody t →
      StringBody (c :: t)
  | short {c d : Char} {t : List Char} : shortEscape? c = some d → StringBody t →
      StringBody ('\\' :: c :: t)
  | unit {a b c d : Char} {n : Nat} {t : List Char} : hexValue? a b c d = some n → StringBody t →
      StringBody ('\\' :: 'u' :: a :: b :: c :: d :: t)

/-- The characters that a body of a string stands for.  Two halves of a surrogate pair make one. -/
inductive Spelled : List Char → List Char → Prop
  | nil : Spelled [] []
  | plain {c : Char} {t s : List Char} : c ≠ '"' → c ≠ '\\' → 0x20 ≤ c.toNat → Spelled t s →
      Spelled (c :: t) (c :: s)
  | short {c d : Char} {t s : List Char} : shortEscape? c = some d → Spelled t s →
      Spelled ('\\' :: c :: t) (d :: s)
  | unit {a b c d : Char} {n : Nat} {t s : List Char} : hexValue? a b c d = some n →
      n < 0xD800 ∨ 0xDFFF < n → Spelled t s →
      Spelled ('\\' :: 'u' :: a :: b :: c :: d :: t) (Char.ofNat n :: s)
  | pair {a b c d a' b' c' d' : Char} {high low : Nat} {t s : List Char} :
      hexValue? a b c d = some high → 0xD800 ≤ high → high ≤ 0xDBFF →
      hexValue? a' b' c' d' = some low → 0xDC00 ≤ low → low ≤ 0xDFFF → Spelled t s →
      Spelled ('\\' :: 'u' :: a :: b :: c :: d :: '\\' :: 'u' :: a' :: b' :: c' :: d' :: t)
        (Char.ofNat ((high - 0xD800) * 1024 + (low - 0xDC00) + 0x10000) :: s)

theorem Spelled.stringBody {t s : List Char} (h : Spelled t s) : StringBody t := by
  induction h with
  | nil => exact .nil
  | plain quote backslash printable _ ih => exact .plain quote backslash printable ih
  | short escaped _ ih => exact .short escaped ih
  | unit value _ _ ih => exact .unit value ih
  | pair high _ _ low _ _ _ ih => exact .unit high (.unit low ih)

/-! ## Values -/

/-- The parts of a text that a value is made of. -/
inductive Part where
  | value
  /-- A value with white space around it. -/
  | item
  | items
  /-- A name and a value, with white space around all of it. -/
  | member
  | members

/-- A well-formed part of a text. -/
inductive IsText : Part → List Char → Prop
  | null : IsText .value ['n', 'u', 'l', 'l']
  | yes : IsText .value ['t', 'r', 'u', 'e']
  | no : IsText .value ['f', 'a', 'l', 's', 'e']
  | number {t : List Char} {n : Numeral} : NumeralText t n → IsText .value t
  | string {t : List Char} : StringBody t → IsText .value ('"' :: (t ++ ['"']))
  | emptyArray {gap : List Char} : IsGap gap → IsText .value ('[' :: (gap ++ [']']))
  | array {t : List Char} : IsText .items t → IsText .value ('[' :: (t ++ [']']))
  | emptyObject {gap : List Char} : IsGap gap → IsText .value ('\x7b' :: (gap ++ ['\x7d']))
  | object {t : List Char} : IsText .members t → IsText .value ('\x7b' :: (t ++ ['\x7d']))
  | item {before t after : List Char} : IsGap before → IsText .value t → IsGap after →
      IsText .item (before ++ (t ++ after))
  | lastItem {t : List Char} : IsText .item t → IsText .items t
  | moreItems {t more : List Char} : IsText .item t → IsText .items more →
      IsText .items (t ++ ',' :: more)
  | member {before name between t : List Char} : IsGap before → StringBody name → IsGap between →
      IsText .item t → IsText .member (before ++ '"' :: (name ++ '"' :: (between ++ ':' :: t)))
  | lastMember {t : List Char} : IsText .member t → IsText .members t
  | moreMembers {t more : List Char} : IsText .member t → IsText .members more →
      IsText .members (t ++ ',' :: more)

end FleetMatch.Json
