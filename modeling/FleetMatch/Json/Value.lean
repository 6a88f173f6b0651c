import FleetMatch.Json.Scanner

/-!
# JSON values

* `Value`: a JSON value, its members in the order of the text.
* `value`: reads one value.  A value that is read may be nested only so deep (`Depth`); a value that
  is skipped may be nested to any depth.

The text is taken apart from left to right by `value` for a value, `itemsTail` after an item of an
array and `members` for a member of an object and those after it.
-/

namespace FleetMatch.Json

/-- A JSON value. -/
inductive Value where
  | null
  | bool (b : Bool)
  | number (n : Number)
  | string (s : String)
  | array (items : List Value)
  | object (members : List (String × Value))

/-- How many brackets may still be opened; `none` for any number of them. -/
abbrev Depth := Option Nat

/-- The depth inside one more bracket. -/
def Depth.enter : Depth → Except Fault Depth
  | none => .ok none
  | some 0 => .error .malformed
  | some (n + 1) => .ok (some n)

/-- The mark between two items or at the end of a list of them. -/
inductive Mark where
  | comma
  | close
  deriving DecidableEq, Repr

/-- The next mark after an item, for a list that ends with `closing`. -/
def mark (closing : Char) (s : List Char) : Except Fault (Read Mark s) :=
  match h : skipSpace s with
  | [] => .error .truncated
  | c :: rest =>
    if c = ',' then .ok ⟨.comma, rest, length_lt_of_skipSpace h⟩
    else if c = closing then .ok ⟨.close, rest, length_lt_of_skipSpace h⟩
    else .error .malformed

/-- The given character, after white space. -/
def punctuation (expected : Char) (s : List Char) : Except Fault (Read Unit s) :=
  match h : skipSpace s with
  | [] => .error .truncated
  | c :: rest =>
    if c = expected then .ok ⟨(), rest, length_lt_of_skipSpace h⟩ else .error .malformed

/-- The name of a member with the colon after it. -/
def memberName (care : Care) (s : List Char) : Except Fault (Read String s) :=
  match punctuation '"' s with
  | .error e => .error e
  | .ok quote =>
    match stringTail care quote.rest with
    | .error e => .error e
    | .ok name =>
      match punctuation ':' name.rest with
      | .error e => .error e
      | .ok colon =>
        .ok ⟨String.ofList name.value, colon.rest,
          Nat.lt_trans colon.shorter (Nat.lt_trans name.shorter quote.shorter)⟩

/-- A literal word whose first letter has been seen. -/
def literal (v : Value) (letters : List Char) (s : List Char) : Except Fault (Value × List Char) :=
  match word letters s with
  | .error e => .error e
  | .ok rest => .ok (v, rest)

theorem length_literal_le {v w : Value} {letters s r : List Char}
    (h : literal v letters s = .ok (w, r)) : r.length ≤ s.length := by
  unfold literal at h
  split at h
  · cases h
  · rename_i heq
    injection h with h
    obtain ⟨-, rfl⟩ := Prod.mk.inj h
    exact length_word_le heq

/-- A number that is read, or delimited if it is skipped. -/
def scanNumber (care : Care) (s : List Char) : Except Fault (Number × List Char) :=
  match numeral care s with
  | .error e => .error e
  | .ok (n, rest) =>
    match care with
    | .skipped => .ok (.int 0, rest)
    | .full rounding =>
      match n.number rounding with
      | .error e => .error e
      | .ok x => .ok (x, rest)

theorem length_scanNumber_lt {care : Care} {s r : List Char} {n : Number}
    (h : scanNumber care s = .ok (n, r)) : r.length < s.length := by
  unfold scanNumber at h
  split at h
  · cases h
  · rename_i heq
    have := length_numeral_lt heq
    split at h
    · injection h with h
      obtain ⟨-, rfl⟩ := Prod.mk.inj h
      exact this
    · split at h
      · cases h
      · injection h with h
        obtain ⟨-, rfl⟩ := Prod.mk.inj h
        exact this

/-- A value that is neither an array nor an object; `c` is its first character. -/
def scalar (care : Care) (c : Char) (s : List Char) : Except Fault (Read Value (c :: s)) :=
  if c = 'n' then
    match h : literal .null ['u', 'l', 'l'] s with
    | .error e => .error e
    | .ok (v, rest) => .ok ⟨v, rest, Nat.lt_succ_of_le (length_literal_le h)⟩
  else if c = 't' then
    match h : literal (.bool true) ['r', 'u', 'e'] s with
    | .error e => .error e
    | .ok (v, rest) => .ok ⟨v, rest, Nat.lt_succ_of_le (length_literal_le h)⟩
  else if c = 'f' then
    match h : literal (.bool false) ['a', 'l', 's', 'e'] s with
    | .error e => .error e
    | .ok (v, rest) => .ok ⟨v, rest, Nat.lt_succ_of_le (length_literal_le h)⟩
  else if c = '"' then
    match stringTail care s with
    | .error e => .error e
    | .ok r => .ok (r.behind c fun text => .string (String.ofList text))
  else if c = '-' || FleetMatch.Numeral.isDigit c then
    match h : scanNumber care (c :: s) with
    | .error e => .error e
    | .ok (n, rest) => .ok ⟨.number n, rest, length_scanNumber_lt h⟩
  else .error .malformed

mutual

/-- A value, after white space. -/
def value (care : Care) (depth : Depth) (s : List Char) : Except Fault (Read Value s) :=
  match h : skipSpace s with
  | [] => .error .truncated
  | c :: rest =>
    have shorter : rest.length < s.length := length_lt_of_skipSpace h
    if c = '[' then
      match depth.enter with
      | .error e => .error e
      | .ok inner =>
        match firstItems care inner rest with
        | .error e => .error e
        | .ok r => .ok ⟨.array r.value, r.rest, Nat.lt_trans r.shorter shorter⟩
    else if c = '\x7b' then
      match depth.enter with
      | .error e => .error e
      | .ok inner =>
        match firstMembers care inner rest with
        | .error e => .error e
        | .ok r => .ok ⟨.object r.value, r.rest, Nat.lt_trans r.shorter shorter⟩
    else
      match scalar care c rest with
      | .error e => .error e
      | .ok r => .ok ⟨r.value, r.rest, Nat.lt_of_lt_of_le r.shorter shorter⟩
termination_by 3 * s.length

/-- The items of an array, after its opening bracket. -/
def firstItems (care : Care) (depth : Depth) (s : List Char) :
    Except Fault (Read (List Value) s) :=
  match h : skipSpace s with
  | [] => .error .truncated
  | c :: rest =>
    if c = ']' then .ok ⟨[], rest, length_lt_of_skipSpace h⟩
    else
      match value care depth s with
      | .error e => .error e
      | .ok first =>
        match itemsTail care depth first.rest with
        | .error e => .error e
        | .ok more =>
          .ok ⟨first.value :: more.value, more.rest, Nat.lt_trans more.shorter first.shorter⟩
termination_by 3 * s.length + 1
decreasing_by
  · omega
  · have := first.shorter
    omega

/-- The items of an array after an item. -/
def itemsTail (care : Care) (depth : Depth) (s : List Char) :
    Except Fault (Read (List Value) s) :=
  match mark ']' s with
  | .error e => .error e
  | .ok m =>
    match m.value with
    | .close => .ok ⟨[], m.rest, m.shorter⟩
    | .comma =>
      match value care depth m.rest with
      | .error e => .error e
      | .ok item =>
        have := Nat.lt_trans item.shorter m.shorter
        match itemsTail care depth item.rest with
        | .error e => .error e
        | .ok more => .ok ⟨item.value :: more.value, more.rest, Nat.lt_trans more.shorter this⟩
termination_by 3 * s.length
decreasing_by
  · have := m.shorter
    omega
  · have := Nat.lt_trans item.shorter m.shorter
    omega

/-- The members of an object, after its opening brace. -/
def firstMembers (care : Care) (depth : Depth) (s : List Char) :
    Except Fault (Read (List (String × Value)) s) :=
  match h : skipSpace s with
  | [] => .error .truncated
  | c :: rest =>
    if c = '\x7d' then .ok ⟨[], rest, length_lt_of_skipSpace h⟩ else members care depth s
termination_by 3 * s.length + 2
decreasing_by omega

/-- One member of an object and those after it. -/
def members (care : Care) (depth : Depth) (s : List Char) :
    Except Fault (Read (List (String × Value)) s) :=
  match memberName care s with
  | .error e => .error e
  | .ok name =>
    match value care depth name.rest with
    | .error e => .error e
    | .ok v =>
      have h1 := Nat.lt_trans v.shorter name.shorter
      match mark '\x7d' v.rest with
      | .error e => .error e
      | .ok m =>
        have h2 := Nat.lt_trans m.shorter h1
        match m.value with
        | .close => .ok ⟨[(name.value, v.value)], m.rest, h2⟩
        | .comma =>
          match members care depth m.rest with
          | .error e => .error e
          | .ok more =>
            .ok ⟨(name.value, v.value) :: more.value, more.rest, Nat.lt_trans more.shorter h2⟩
termination_by 3 * s.length + 1
decreasing_by
  · have := name.shorter
    omega
  · have := Nat.lt_trans m.shorter (Nat.lt_trans v.shorter name.shorter)
    omega

end

/-- The nesting that a value may have in all. -/
def maxDepth : Nat := 127

/-- Nothing but white space is left. -/
def ended {α : Type} (result : α) (rest : List Char) : Except Fault α :=
  if (skipSpace rest).isEmpty then .ok result else .error .malformed

/-- Reads a whole text with a reader that is told the nesting it may use. -/
def readAll {α : Type} (reader : Nat → Reader α) (s : List Char) : Except Fault α :=
  match reader maxDepth s with
  | .error e => .error e
  | .ok r => ended r.value r.rest

/-- The value that a whole text is, with numbers rounded in the given way. -/
def parseBy (rounding : Rounding) (s : List Char) : Except Fault Value :=
  readAll (fun n => value (.full rounding) (some n)) s

/-- The value that a whole text is, with every number taken for the nearest one. -/
def parse (s : List Char) : Except Fault Value := parseBy .nearest s

end FleetMatch.Json
