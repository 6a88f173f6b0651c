/-!
# Decimal numerals

* `digits`, `ofInt`: the numeral of a number, without leading zeros.
* `nat?`: the value of a non-empty run of the digits 0 to 9.
* `signed?`: the same after an optional sign.  Leading zeros are allowed.
* `int64?`, `uint64?`: numerals whose value fits 64 bits, with and without a sign bit.
-/

namespace FleetMatch.Numeral

/-- The numeral of a natural number. -/
def digits (n : Nat) : List Char := Nat.toDigits 10 n

/-- The numeral of a natural number, as a string. -/
def ofNat (n : Nat) : String := String.ofList (digits n)

/-- The numeral of an integer. -/
def ofInt (n : Int) : String :=
  if n < 0 then String.ofList ('-' :: digits n.natAbs) else ofNat n.natAbs

/-- The character is one of 0 to 9. -/
def isDigit (c : Char) : Bool := '0' ≤ c && c ≤ '9'

/-- The value of a digit. -/
def digitValue (c : Char) : Nat := c.toNat - '0'.toNat

/-- A number that is being read, in two parts: `high * scale + low`.  The low part stays short, so
that a long run of digits seldom touches the long part. -/
structure Reading where
  high : Nat
  scale : Nat
  low : Nat

namespace Reading

/-- The number that has been read. -/
def value (r : Reading) : Nat := r.high * r.scale + r.low

/-- Takes in a digit. -/
def next (r : Reading) (c : Char) : Reading :=
  if r.scale < 100000000000000000 then ⟨r.high, 10 * r.scale, 10 * r.low + digitValue c⟩
  else ⟨r.value, 10, digitValue c⟩

theorem value_next (r : Reading) (c : Char) : (r.next c).value = 10 * r.value + digitValue c := by
  unfold next
  split
  · simp only [value]
    rw [Nat.mul_left_comm]
    omega
  · simp only [value]
    omega

theorem value_foldl (cs : List Char) (r : Reading) :
    (cs.foldl next r).value = cs.foldl (fun acc c => 10 * acc + digitValue c) r.value := by
  induction cs generalizing r with
  | nil => rfl
  | cons c rest ih => simp only [List.foldl_cons, ih, value_next]

end Reading

/-- The value of a run of digits that continues a number. -/
def continued (value : Nat) (cs : List Char) : Nat := (cs.foldl Reading.next ⟨value, 1, 0⟩).value

/-- Every digit makes the number ten times as large and adds its own value. -/
theorem continued_eq_foldl (value : Nat) (cs : List Char) :
    continued value cs = cs.foldl (fun acc c => 10 * acc + digitValue c) value := by
  rw [continued, Reading.value_foldl]
  simp [Reading.value]

/-- The value of a run of digits, zero for none. -/
def value (cs : List Char) : Nat := continued 0 cs

/-- The value of a numeral without a sign. -/
def nat? (cs : List Char) : Option Nat :=
  if cs.isEmpty || !cs.all isDigit then none else some (value cs)

/-- The value of a numeral with an optional sign. -/
def signed? : List Char → Option Int
  | '-' :: cs => (nat? cs).map fun n => -(n : Int)
  | '+' :: cs => (nat? cs).map fun n => (n : Int)
  | cs => (nat? cs).map fun n => (n : Int)

/-- The integer fits 64 bits with a sign. -/
def fitsInt64 (n : Int) : Bool := -0x8000000000000000 ≤ n && n < 0x8000000000000000

/-- The integer fits 64 bits with or without a sign. -/
def fits64 (n : Int) : Bool := -0x8000000000000000 ≤ n && n < 0x10000000000000000

/-- The value of a signed numeral that fits 64 bits. -/
def int64? (cs : List Char) : Option Int64 :=
  (signed? cs).bind fun n => if fitsInt64 n then some (Int64.ofInt n) else none

/-- The value of an unsigned numeral, a plus sign allowed, that fits 64 bits. -/
def uint64? (cs : List Char) : Option Nat :=
  (nat? (if cs.head? = some '+' then cs.tail else cs)).bind fun n =>
    if n < UInt64.size then some n else none

end FleetMatch.Numeral
