/-!
# UTF-8

Bytes are read as characters by `next`, which takes one well-formed character or tells what is
wrong: a malformed piece (the longest start of a character that its next byte rules out, at least
one byte) or a text that ends inside a character.

* `decode`: all characters, or where and how the bytes stop being UTF-8.
* `decodeLossy`: every malformed piece and every cut-off end becomes U+FFFD.
* `encode`: the bytes of a text.
-/

namespace FleetMatch.Text.Utf8

/-- What stands at the start of a sequence of bytes. -/
inductive Piece where
  /-- A character, written in `width` bytes. -/
  | char (c : Char) (width : Nat)
  /-- So many bytes that no character starts with. -/
  | malformed (width : Nat)
  /-- The bytes end inside a character. -/
  | cut
  deriving DecidableEq, Repr

/-- The byte continues a character. -/
def isTail (b : UInt8) : Bool := 0x80 ≤ b && b ≤ 0xBF

/-- The six low bits of a continuing byte. -/
def low (b : UInt8) : Nat := b.toNat % 64

/-- The second bytes that may follow a first byte of three. -/
def isSecondOfThree (first b : UInt8) : Bool :=
  if first = 0xE0 then 0xA0 ≤ b && b ≤ 0xBF
  else if first = 0xED then 0x80 ≤ b && b ≤ 0x9F
  else isTail b

/-- The second bytes that may follow a first byte of four. -/
def isSecondOfFour (first b : UInt8) : Bool :=
  if first = 0xF0 then 0x90 ≤ b && b ≤ 0xBF
  else if first = 0xF4 then 0x80 ≤ b && b ≤ 0x8F
  else isTail b

/-- The piece that starts with `first` and goes on with `rest`. -/
def next (first : UInt8) (rest : List UInt8) : Piece :=
  let lead := first.toNat
  if first < 0x80 then .char (Char.ofNat lead) 1
  else if 0xC2 ≤ first && first ≤ 0xDF then
    match rest with
    | [] => .cut
    | b :: _ => if isTail b then .char (Char.ofNat (lead % 32 * 64 + low b)) 2 else .malformed 1
  else if 0xE0 ≤ first && first ≤ 0xEF then
    match rest with
    | [] => .cut
    | b :: rest =>
      if isSecondOfThree first b then
        match rest with
        | [] => .cut
        | c :: _ =>
          if isTail c then .char (Char.ofNat (lead % 16 * 4096 + low b * 64 + low c)) 3
          else .malformed 2
      else .malformed 1
  else if 0xF0 ≤ first && first ≤ 0xF4 then
    match rest with
    | [] => .cut
    | b :: rest =>
      if isSecondOfFour first b then
        match rest with
        | [] => .cut
        | c :: rest =>
          if isTail c then
            match rest with
            | [] => .cut
            | d :: _ =>
              if isTail d then
                .char (Char.ofNat (lead % 8 * 262144 + low b * 4096 + low c * 64 + low d)) 4
              else .malformed 3
          else .malformed 2
      else .malformed 1
  else .malformed 1

/-- Where and how bytes stop being UTF-8. -/
inductive Failure where
  /-- A malformed piece of so many bytes at an index. -/
  | malformed (width index : Nat)
  /-- The text ends inside the character that starts at an index. -/
  | cut (index : Nat)
  deriving DecidableEq, Repr

/-- The failure in words. -/
def Failure.message : Failure → String
  | .malformed width index =>
    "invalid utf-8 sequence of " ++ Nat.repr width ++ " bytes from index " ++ Nat.repr index
  | .cut index => "incomplete utf-8 byte sequence from index " ++ Nat.repr index

/-- All characters of bytes that stand at an index. -/
def decodeFrom (index : Nat) : List UInt8 → Except Failure (List Char)
  | [] => .ok []
  | first :: rest =>
    match next first rest with
    | .char c width => (decodeFrom (index + width) (rest.drop (width - 1))).map (c :: ·)
    | .malformed width => .error (.malformed width index)
    | .cut => .error (.cut index)
termination_by bs => bs.length
decreasing_by simp only [List.length_drop, List.length_cons]; omega

/-- All characters, or where the bytes stop being UTF-8. -/
def decode (bytes : List UInt8) : Except Failure (List Char) := decodeFrom 0 bytes

/-- All characters, with U+FFFD for each malformed piece and for a cut-off end. -/
def decodeLossy : List UInt8 → List Char
  | [] => []
  | first :: rest =>
    match next first rest with
    | .char c width => c :: decodeLossy (rest.drop (width - 1))
    | .malformed width => '\uFFFD' :: decodeLossy (rest.drop (width - 1))
    | .cut => ['\uFFFD']
termination_by bs => bs.length
decreasing_by all_goals simp only [List.length_drop, List.length_cons]; omega

/-- The bytes of a text. -/
def encode (cs : List Char) : List UInt8 := cs.flatMap String.utf8EncodeChar

/-- The number of bytes that a text takes. -/
def size (cs : List Char) : Nat := cs.foldl (fun total c => total + c.utf8Size) 0

end FleetMatch.Text.Utf8
