import Mathlib.Tactic.SplitIfs
import FleetMatch.Text.Utf8

/-!
# Bytes that are text

* `text?`: the characters of bytes, if the bytes are text.
* `next_append`, `next_cut` — what stands at the start of bytes, with more bytes after them.
* `text?_append` — a byte of ASCII ends what stands before it: bytes with such a byte among them are
  text exactly if the bytes before it and the bytes from it on are.
* `next_encode`, `text?_encode` — what a character, or a text, is written as is read as it again.
* `decodeLossy_of_text?` — nothing is replaced in bytes that are text.
-/

set_option autoImplicit false

namespace FleetMatch.Text.Utf8

/-- The characters of bytes, if the bytes are text. -/
def text? (bytes : List UInt8) : Option (List Char) := (decode bytes).toOption

variable {first second third fourth ascii : UInt8} {rest : List UInt8} {c : Char} {width : Nat}

/-! ## Bytes of ASCII -/

theorem isTail_ascii (small : ascii < 0x80) : isTail ascii = false := by
  unfold isTail
  grind

theorem isSecondOfThree_ascii (first : UInt8) (small : ascii < 0x80) :
    isSecondOfThree first ascii = false := by
  have noTail := isTail_ascii small
  unfold isSecondOfThree
  grind

theorem isSecondOfFour_ascii (first : UInt8) (small : ascii < 0x80) :
    isSecondOfFour first ascii = false := by
  have noTail := isTail_ascii small
  unfold isSecondOfFour
  grind

theorem next_ascii (rest : List UInt8) (small : ascii < 0x80) :
    next ascii rest = .char (Char.ofNat ascii.toNat) 1 := by
  unfold next
  rw [if_pos small]

/-! ## Characters of several bytes -/

theorem next_two (least : 0xC2 ≤ first) (most : first ≤ 0xDF) (tail : isTail second = true) :
    next first (second :: rest) = .char (Char.ofNat (first.toNat % 32 * 64 + low second)) 2 := by
  unfold next
  grind

theorem next_three (least : 0xE0 ≤ first) (most : first ≤ 0xEF)
    (fits : isSecondOfThree first second = true) (tail : isTail third = true) :
    next first (second :: third :: rest) =
      .char (Char.ofNat (first.toNat % 16 * 4096 + low second * 64 + low third)) 3 := by
  unfold next
  grind

theorem next_four (least : 0xF0 ≤ first) (most : first ≤ 0xF4)
    (fits : isSecondOfFour first second = true) (tail : isTail third = true) (tail' : isTail fourth = true) :
    next first (second :: third :: fourth :: rest) =
      .char (Char.ofNat (first.toNat % 8 * 262144 + low second * 4096 + low third * 64 + low fourth)) 4 := by
  unfold next
  grind

/-! ## Bytes of numbers -/

section

variable {n : Nat} {b : UInt8}

theorem toNat_ofNat (small : n < 256) : (UInt8.ofNat n).toNat = n := by
  rw [UInt8.toNat_ofNat', Nat.mod_eq_of_lt small]

theorem le_ofNat (small : n < 256) (h : b.toNat ≤ n) : b ≤ UInt8.ofNat n := by
  rwa [UInt8.le_iff_toNat_le, toNat_ofNat small]

theorem ofNat_le (h : n ≤ b.toNat) : UInt8.ofNat n ≤ b := by
  have small : n < 256 := Nat.lt_of_le_of_lt h b.toNat_lt
  rwa [UInt8.le_iff_toNat_le, toNat_ofNat small]

theorem eq_of_ofNat_eq (small : n < 256) (h : UInt8.ofNat n = b) : n = b.toNat := by
  rw [← h, toNat_ofNat small]

theorem within_ofNat {b' : UInt8} (low : b.toNat ≤ n) (high : n ≤ b'.toNat) :
    (decide (b ≤ UInt8.ofNat n) && decide (UInt8.ofNat n ≤ b')) = true := by
  have small : n < 256 := Nat.lt_of_le_of_lt high b'.toNat_lt
  rw [decide_eq_true (le_ofNat small low), decide_eq_true (ofNat_le high), Bool.and_self]

theorem isTail_ofNat (n : Nat) : isTail (UInt8.ofNat (n % 64 + 128)) = true :=
  within_ofNat (show 128 ≤ _ by omega) (show _ ≤ 191 by omega)

theorem low_ofNat (n : Nat) : low (UInt8.ofNat (n % 64 + 128)) = n % 64 := by
  rw [low, toNat_ofNat (by omega)]
  omega

/-- A second byte fits if the character needs three bytes and is no half of a surrogate pair. -/
theorem isSecondOfThree_ofNat {lead : Nat} (small : lead < 256) (n : Nat)
    (shortest : lead = 224 → 32 ≤ n % 64) (unpaired : lead = 237 → n % 64 < 32) :
    isSecondOfThree (UInt8.ofNat lead) (UInt8.ofNat (n % 64 + 128)) = true := by
  unfold isSecondOfThree
  split_ifs with lowest surrogate
  · have := shortest (eq_of_ofNat_eq small lowest)
    exact within_ofNat (show 160 ≤ _ by omega) (show _ ≤ 191 by omega)
  · have := unpaired (eq_of_ofNat_eq small surrogate)
    exact within_ofNat (show 128 ≤ _ by omega) (show _ ≤ 159 by omega)
  · exact isTail_ofNat n

/-- A second byte fits if the character needs four bytes and is not beyond the last one. -/
theorem isSecondOfFour_ofNat {lead : Nat} (small : lead < 256) (n : Nat)
    (shortest : lead = 240 → 16 ≤ n % 64) (largest : lead = 244 → n % 64 < 16) :
    isSecondOfFour (UInt8.ofNat lead) (UInt8.ofNat (n % 64 + 128)) = true := by
  unfold isSecondOfFour
  split_ifs with lowest highest
  · have := shortest (eq_of_ofNat_eq small lowest)
    exact within_ofNat (show 144 ≤ _ by omega) (show _ ≤ 191 by omega)
  · have := largest (eq_of_ofNat_eq small highest)
    exact within_ofNat (show 128 ≤ _ by omega) (show _ ≤ 143 by omega)
  · exact isTail_ofNat n

end

/-! ## Pieces with more bytes after them -/

/-- A character takes at least one byte, and not more than there are. -/
theorem width_le (h : next first rest = .char c width) :
    0 < width ∧ width ≤ rest.length + 1 := by
  rcases rest with _ | ⟨b, _ | ⟨c, _ | ⟨d, rest⟩⟩⟩
  all_goals
    unfold next at *
    grind

/-- What does not reach the end of the bytes stays as it is if more bytes follow. -/
theorem next_append (more : List UInt8) (whole : next first rest ≠ .cut) :
    next first (rest ++ more) = next first rest := by
  rcases rest with _ | ⟨b, _ | ⟨c, _ | ⟨d, rest⟩⟩⟩
  all_goals
    unfold next at *
    grind

/-- A character that is cut off does not go on with a byte of ASCII. -/
theorem next_cut (more : List UInt8) (small : ascii < 0x80) (cut : next first rest = .cut) :
    next first (rest ++ ascii :: more) ≠ .char c width := by
  have noTail := isTail_ascii small
  have noSecondOfThree := isSecondOfThree_ascii first small
  have noSecondOfFour := isSecondOfFour_ascii first small
  rcases rest with _ | ⟨b, _ | ⟨c, _ | ⟨d, rest⟩⟩⟩
  all_goals
    unfold next at *
    grind

/-! ## All characters -/

theorem toOption_map {α β ε : Type} (f : α → β) (e : Except ε α) :
    (e.map f).toOption = e.toOption.map f := by
  cases e <;> rfl

theorem toOption_eq_some_iff {α ε : Type} {e : Except ε α} {a : α} : e.toOption = some a ↔ e = .ok a := by
  cases e with
  | error _ => exact iff_of_false nofun nofun
  | ok _ => exact ⟨fun h => congrArg Except.ok (Option.some.inj h), fun h => congrArg Except.toOption h⟩

/-- Where the bytes stand matters only to what is said about a failure. -/
theorem toOption_decodeFrom (bytes : List UInt8) (index : Nat) :
    (decodeFrom index bytes).toOption = text? bytes := by
  suffices same : ∀ index', (decodeFrom index bytes).toOption = (decodeFrom index' bytes).toOption from
    same 0
  induction index, bytes using decodeFrom.induct with
  | case1 =>
    intro index'
    rw [decodeFrom, decodeFrom]
  | case2 index first rest c width piece ih =>
    intro index'
    rw [decodeFrom, decodeFrom]
    simp only [piece, toOption_map]
    rw [ih (index' + width)]
  | case3 index first rest width piece =>
    intro index'
    rw [decodeFrom, decodeFrom]
    simp only [piece]
    rfl
  | case4 index first rest piece =>
    intro index'
    rw [decodeFrom, decodeFrom]
    simp only [piece]
    rfl

theorem text?_nil : text? [] = some [] := by
  rw [text?, decode, decodeFrom]
  rfl

theorem text?_of_char (piece : next first rest = .char c width) :
    text? (first :: rest) = (text? (rest.drop (width - 1))).map (c :: ·) := by
  rw [text?, decode, decodeFrom]
  simp only [piece, toOption_map, toOption_decodeFrom]

theorem text?_of_not_char (piece : ∀ c width, next first rest ≠ .char c width) :
    text? (first :: rest) = none := by
  rw [text?, decode, decodeFrom]
  split
  · rename_i c width char
    exact absurd char (piece c width)
  · rfl
  · rfl

theorem text?_ascii (rest : List UInt8) (small : ascii < 0x80) :
    text? (ascii :: rest) = (text? rest).map (Char.ofNat ascii.toNat :: ·) :=
  text?_of_char (next_ascii rest small)

/-- **A byte of ASCII ends what stands before it.** -/
theorem text?_append (bytes more : List UInt8) (small : ascii < 0x80) :
    text? (bytes ++ ascii :: more) =
      (text? bytes).bind fun cs => (text? (ascii :: more)).map (cs ++ ·) := by
  match bytes with
  | [] => simp [text?_nil]
  | first :: rest =>
    rw [List.cons_append]
    cases piece : next first rest with
    | char c width =>
      have grown : next first (rest ++ ascii :: more) = .char c width := by
        rw [next_append _ (by simp [piece]), piece]
      obtain ⟨-, fits⟩ := width_le piece
      have short : width - 1 ≤ rest.length := by omega
      rw [text?_of_char piece, text?_of_char grown, List.drop_append_of_le_length short,
        text?_append (rest.drop (width - 1)) more small]
      cases text? (rest.drop (width - 1)) <;> cases text? (ascii :: more) <;> rfl
    | malformed width =>
      have grown : next first (rest ++ ascii :: more) = .malformed width := by
        rw [next_append _ (by simp [piece]), piece]
      have alone : text? (first :: rest) = none :=
        text?_of_not_char fun _ _ char => nomatch piece.symm.trans char
      have still : text? (first :: (rest ++ ascii :: more)) = none :=
        text?_of_not_char fun _ _ char => nomatch grown.symm.trans char
      rw [alone, still]
      rfl
    | cut =>
      have alone : text? (first :: rest) = none :=
        text?_of_not_char fun _ _ char => nomatch piece.symm.trans char
      have still : text? (first :: (rest ++ ascii :: more)) = none :=
        text?_of_not_char fun _ _ => next_cut more small piece
      rw [alone, still]
      rfl
termination_by bytes.length
decreasing_by simp only [List.length_drop, List.length_cons]; omega

/-! ## Texts and their bytes -/

/-- What a character is written as starts with this character, and takes all its bytes. -/
theorem next_encode (c : Char) (more : List UInt8) :
    ∃ first tail, String.utf8EncodeChar c = first :: tail ∧
      next first (tail ++ more) = .char c (tail.length + 1) := by
  have valid : c.val.toNat.isValidChar := c.valid
  have back : Char.ofNat c.val.toNat = c := Char.ofNat_toNat c
  unfold String.utf8EncodeChar
  generalize c.val.toNat = v at *
  unfold Nat.isValidChar at valid
  simp only
  split_ifs with one two three
  · have small : UInt8.ofNat v < 0x80 := by
      rw [UInt8.lt_iff_toNat_lt, toNat_ofNat (by omega)]
      exact Nat.lt_succ_of_le one
    refine ⟨_, _, rfl, (next_ascii _ small).trans ?_⟩
    rw [toNat_ofNat (by omega), back]
    rfl
  · have least : 0xC2 ≤ UInt8.ofNat (v / 64 % 32 + 192) := le_ofNat (by omega) (show 194 ≤ _ by omega)
    have most : UInt8.ofNat (v / 64 % 32 + 192) ≤ 0xDF := ofNat_le (show _ ≤ 223 by omega)
    have sum : (v / 64 % 32 + 192) % 32 * 64 + v % 64 = v := by omega
    refine ⟨_, _, rfl, (next_two least most (isTail_ofNat v)).trans ?_⟩
    rw [toNat_ofNat (by omega), low_ofNat, sum, back]
    rfl
  · have least : 0xE0 ≤ UInt8.ofNat (v / 4096 % 16 + 224) := le_ofNat (by omega) (show 224 ≤ _ by omega)
    have most : UInt8.ofNat (v / 4096 % 16 + 224) ≤ 0xEF := ofNat_le (show _ ≤ 239 by omega)
    have fits := isSecondOfThree_ofNat (show v / 4096 % 16 + 224 < 256 by omega) (v / 64) (by omega) (by omega)
    have sum : (v / 4096 % 16 + 224) % 16 * 4096 + v / 64 % 64 * 64 + v % 64 = v := by omega
    refine ⟨_, _, rfl, (next_three least most fits (isTail_ofNat v)).trans ?_⟩
    rw [toNat_ofNat (by omega), low_ofNat, low_ofNat, sum, back]
    rfl
  · have least : 0xF0 ≤ UInt8.ofNat (v / 262144 % 8 + 240) := le_ofNat (by omega) (show 240 ≤ _ by omega)
    have most : UInt8.ofNat (v / 262144 % 8 + 240) ≤ 0xF4 := ofNat_le (show _ ≤ 244 by omega)
    have fits :=
      isSecondOfFour_ofNat (show v / 262144 % 8 + 240 < 256 by omega) (v / 4096) (by omega) (by omega)
    have sum :
        (v / 262144 % 8 + 240) % 8 * 262144 + v / 4096 % 64 * 4096 + v / 64 % 64 * 64 + v % 64 = v := by
      omega
    refine ⟨_, _, rfl, (next_four least most fits (isTail_ofNat (v / 64)) (isTail_ofNat v)).trans ?_⟩
    rw [toNat_ofNat (by omega), low_ofNat, low_ofNat, low_ofNat, sum, back]
    rfl

/-- The bytes of a character in front of others are this character in front of what they are. -/
theorem text?_encodeChar (c : Char) (more : List UInt8) :
    text? (String.utf8EncodeChar c ++ more) = (text? more).map (c :: ·) := by
  obtain ⟨first, tail, bytes, piece⟩ := next_encode c more
  rw [bytes, List.cons_append, text?_of_char piece, Nat.add_sub_cancel, List.drop_left]

/-- **What a text is written as is read as this text.** -/
theorem text?_encode (cs : List Char) : text? (encode cs) = some cs := by
  induction cs with
  | nil => exact text?_nil
  | cons c cs ih =>
    show text? (String.utf8EncodeChar c ++ encode cs) = some (c :: cs)
    rw [text?_encodeChar, ih, Option.map_some]

/-- **Nothing is replaced in bytes that are text.** -/
theorem decodeLossy_of_text? {bytes : List UInt8} {cs : List Char} (h : text? bytes = some cs) :
    decodeLossy bytes = cs := by
  induction bytes using decodeLossy.induct generalizing cs with
  | case1 =>
    rw [text?_nil] at h
    rw [decodeLossy]
    exact Option.some.inj h
  | case2 first rest c width piece ih =>
    rw [text?_of_char piece] at h
    obtain ⟨more, text, rfl⟩ := Option.map_eq_some_iff.1 h
    rw [decodeLossy]
    simp only [piece, ih text]
  | case3 first rest width piece ih =>
    rw [text?_of_not_char (by simp [piece])] at h
    cases h
  | case4 first rest piece =>
    rw [text?_of_not_char (by simp [piece])] at h
    cases h

end FleetMatch.Text.Utf8
