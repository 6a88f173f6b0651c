import FleetMatch.Decimal.Layout
import FleetMatch.Json.Value
import FleetMatch.Text.Quoted

/-!
# Reading JSON text as values of a known shape

A typed reader looks at the next value of the text and takes it only if it has the wanted shape.
Reading stops at the first thing that is wrong: a value of the wrong shape is told from its first
character, before the text behind it is looked at.  Numbers are found in steps.

* `float`, `natural`, `boolean`, `text`, `optional`, `choice`: single values.
* `record`: a record, written as an object or as an array of its fields in order.  Members with
  unknown names are skipped.
-/

namespace FleetMatch.Json

/-! ## Values of the wrong shape -/

/-- A number as messages name it. -/
def Number.describe : Number → String
  | .int n => "integer `" ++ FleetMatch.Numeral.ofInt n ++ "`"
  | .float x => "floating point `" ++ Decimal.Layout.json.text x ++ "`"

/-- A value that is neither array nor object, as messages name it. -/
def Value.describe : Value → String
  | .null => "null"
  | .bool b => "boolean `" ++ (if b then "true" else "false") ++ "`"
  | .number n => n.describe
  | .string s => "string " ++ Text.quoted s
  | .array _ => "sequence"
  | .object _ => "map"

/-- The wrong kind of value. -/
def Fault.wrongType (found expected : String) : Fault :=
  .mismatch ("invalid type: " ++ found ++ ", expected " ++ expected)

/-- The right kind of value, but out of range. -/
def Fault.wrongValue (found expected : String) : Fault :=
  .mismatch ("invalid value: " ++ found ++ ", expected " ++ expected)

/-- The fault of a value that starts with `c` and is not what is expected.  Brackets are told at
sight; everything else is read first and may be malformed itself. -/
def unexpected (expected : String) (c : Char) (s : List Char) : Fault :=
  if c = '[' then .wrongType (Value.array []).describe expected
  else if c = '\x7b' then .wrongType (Value.object []).describe expected
  else
    match scalar (.full .stepwise) c s with
    | .error e => e
    | .ok r => .wrongType r.value.describe expected

/-! ## Single values -/

/-- Reads a value by its first character; `read` gets it and the text behind it. -/
def dispatch {α : Type}
    (read : (c : Char) → (rest : List Char) → Except Fault (Read α (c :: rest))) : Reader α :=
  fun s =>
    match h : skipSpace s with
    | [] => .error .truncated
    | c :: rest =>
      match read c rest with
      | .error e => .error e
      | .ok r =>
        .ok ⟨r.value, r.rest, by
          have := r.shorter
          have := length_skipSpace_le s
          rw [h] at this
          omega⟩

/-- A number, whose value `accept` takes or refuses. -/
def number {α : Type} (expected : String) (accept : Number → Except Fault α) : Reader α :=
  dispatch fun c s =>
    if c = '-' || FleetMatch.Numeral.isDigit c then
      match h : scanNumber (.full .stepwise) (c :: s) with
      | .error e => .error e
      | .ok (n, rest) =>
        match accept n with
        | .error e => .error e
        | .ok x => .ok ⟨x, rest, length_scanNumber_lt h⟩
    else .error (unexpected expected c s)

/-- A number of any kind, as binary64. -/
def float : Reader Float :=
  number "f64" fun n => .ok n.toFloat

/-- A natural number of 64 bits; `expected` is what messages call it. -/
def natural (expected : String) : Reader Nat :=
  number expected fun
    | .int (.ofNat n) => .ok n
    | .int (.negSucc n) => .error (.wrongValue (Number.int (.negSucc n)).describe expected)
    | .float x => .error (.wrongType (Number.float x).describe expected)

/-- A truth value. -/
def boolean : Reader Bool :=
  dispatch fun c s =>
    if c = 't' || c = 'f' then
      match scalar (.full .stepwise) c s with
      | .error e => .error e
      | .ok r =>
        match r.value with
        | .bool b => .ok ⟨b, r.rest, r.shorter⟩
        | v => .error (.wrongType v.describe "a boolean")
    else .error (unexpected "a boolean" c s)

/-- A string; `expected` is what messages call it. -/
def text (expected : String) : Reader String :=
  dispatch fun c s =>
    if c = '"' then
      match stringTail (.full .stepwise) s with
      | .error e => .error e
      | .ok r => .ok (r.behind c String.ofList)
    else .error (unexpected expected c s)

/-- The value `null`. -/
def unit : Reader Unit :=
  dispatch fun c s =>
    if c = 'n' then
      match scalar (.full .stepwise) c s with
      | .error e => .error e
      | .ok r => .ok ⟨(), r.rest, r.shorter⟩
    else .error (unexpected "unit" c s)

/-- `null` or a value. -/
def optional {α : Type} (reader : Reader α) : Reader (Option α) := fun s =>
  if (skipSpace s).head? = some 'n' then
    match unit s with
    | .error e => .error e
    | .ok r => .ok ⟨none, r.rest, r.shorter⟩
  else
    match reader s with
    | .error e => .error e
    | .ok r => .ok ⟨some r.value, r.rest, r.shorter⟩

/-! ## Choices -/

/-- The words of a choice as messages list them. -/
def wordList (words : List String) : String :=
  let marked := words.map fun w => "`" ++ w ++ "`"
  match marked with
  | [a, b] => a ++ " or " ++ b
  | _ => "one of " ++ ", ".intercalate marked

/-- The meaning of a word of a choice. -/
def chosen {α : Type} (options : List (String × α)) (name : String) : Except Fault α :=
  match options.find? fun option => option.1 == name with
  | some option => .ok option.2
  | none =>
    .error (.mismatch
      ("unknown variant `" ++ name ++ "`, expected " ++ wordList (options.map Prod.fst)))

/-- One of some words, written as a string or as an object whose only member has the word as its
name and `null` as its value. -/
def choice {α : Type} (options : List (String × α)) (depth : Nat) : Reader α :=
  dispatch fun c s =>
    if c = '"' then
      match stringTail (.full .stepwise) s with
      | .error e => .error e
      | .ok r =>
        match chosen options (String.ofList r.value) with
        | .error e => .error e
        | .ok x => .ok (r.behind c fun _ => x)
    else if c = '\x7b' then
      if depth = 0 then .error .malformed
      else
        match text "variant identifier" s with
        | .error e => .error e
        | .ok name =>
          match chosen options name.value with
          | .error e => .error e
          | .ok x =>
            match punctuation ':' name.rest with
            | .error e => .error e
            | .ok colon =>
              match unit colon.rest with
              | .error e => .error e
              | .ok u =>
                match punctuation '\x7d' u.rest with
                | .error e => .error e
                | .ok close =>
                  .ok ⟨x, close.rest, by
                    have h1 := name.shorter
                    have h2 := colon.shorter
                    have h3 := u.shorter
                    have h4 := close.shorter
                    simp only [List.length_cons]
                    omega⟩
    else .error .malformed

/-! ## Records -/

/-- A field of a record that is read into a value of type `σ`. -/
structure Field (σ : Type) where
  name : String
  /-- Reads the field into a record, given the nesting that is left. -/
  read : Nat → σ → Reader σ
  /-- An object may do without the field. -/
  optional : Bool
  /-- An array may end before the field. -/
  trailing : Bool

/-- A field that must be there. -/
def Field.required {σ α : Type} (name : String) (reader : Nat → Reader α) (put : σ → α → σ) :
    Field σ where
  name := name
  read depth record s :=
    match reader depth s with
    | .error e => .error e
    | .ok r => .ok ⟨put record r.value, r.rest, r.shorter⟩
  optional := false
  trailing := false

/-- A field that objects may leave out. -/
def Field.orAbsent {σ α : Type} (name : String) (reader : Nat → Reader α) (put : σ → α → σ) :
    Field σ := { Field.required name reader put with optional := true }

/-- A field that objects and arrays may leave out. -/
def Field.orDefault {σ α : Type} (name : String) (reader : Nat → Reader α) (put : σ → α → σ) :
    Field σ := { Field.required name reader put with optional := true, trailing := true }

section

variable {σ : Type}

/-- Something read from a text, which may have been nothing. -/
structure Remaining (α : Type) (s : List Char) where
  value : α
  rest : List Char
  noLonger : rest.length ≤ s.length

/-- Moves to the next item of an array: the text of the item, or `none` where the array closes. -/
def nextItem (first : Bool) (s : List Char) : Except Fault (Remaining Bool s) :=
  match h : skipSpace s with
  | [] => .error .truncated
  | c :: rest =>
    if c = ']' then .ok ⟨false, s, Nat.le_refl _⟩
    else if first then .ok ⟨true, s, Nat.le_refl _⟩
    else if c = ',' then
      match skipSpace rest with
      | [] => .error .truncated
      | d :: _ =>
        if d = ']' then .error .malformed
        else .ok ⟨true, rest, Nat.le_of_lt (length_lt_of_skipSpace h)⟩
    else .error .malformed

/-- The fields of a record from the items of an array.  `count` items have been read. -/
def fromItems (tooShort : Nat → Fault) (depth : Nat) (count : Nat) :
    List (Field σ) → σ → (s : List Char) → Except Fault (Remaining σ s)
  | [], record, s => .ok ⟨record, s, Nat.le_refl _⟩
  | field :: fields, record, s =>
    match nextItem (count == 0) s with
    | .error e => .error e
    | .ok item =>
      if item.value then
        match field.read depth record item.rest with
        | .error e => .error e
        | .ok r =>
          match fromItems tooShort depth (count + 1) fields r.value r.rest with
          | .error e => .error e
          | .ok done =>
            .ok ⟨done.value, done.rest, by
              have h1 := item.noLonger
              have h2 := r.shorter
              have h3 := done.noLonger
              omega⟩
      else if field.trailing then
        match fromItems tooShort depth count fields record s with
        | .error e => .error e
        | .ok done => .ok done
      else .error (tooShort count)

/-- The first field that an object must have and that is not among those seen. -/
def firstMissing? (fields : List (Field σ)) (seen : List String) : Option String :=
  (fields.find? fun field => !field.optional && !seen.contains field.name).map Field.name

/-- The record, if no field is missing. -/
def complete (fields : List (Field σ)) (seen : List String) (record : σ) : Except Fault σ :=
  match firstMissing? fields seen with
  | some name => .error (.mismatch ("missing field `" ++ name ++ "`"))
  | none => .ok record

/-- Skips a member with an unknown name. -/
def skipMember (record : σ) : Reader σ := fun s =>
  match value .skipped none s with
  | .error e => .error e
  | .ok r => .ok ⟨record, r.rest, r.shorter⟩

/-- The name of a member, before its colon. -/
def name (s : List Char) : Except Fault (Read String s) :=
  match punctuation '"' s with
  | .error e => .error e
  | .ok quote =>
    match stringTail (.full .stepwise) quote.rest with
    | .error e => .error e
    | .ok r => .ok ⟨String.ofList r.value, r.rest, Nat.lt_trans r.shorter quote.shorter⟩

/-- One member: its name, checked against those seen, and its value.  A name that comes twice is
refused before its value is looked at. -/
def oneMember (fields : List (Field σ)) (depth : Nat) (seen : List String) (record : σ) :
    Reader (List String × σ) := fun s =>
  match name s with
  | .error e => .error e
  | .ok n =>
    match fields.find? fun field => field.name == n.value with
    | some field =>
      if seen.contains field.name then
        .error (.mismatch ("duplicate field `" ++ field.name ++ "`"))
      else
        match punctuation ':' n.rest with
        | .error e => .error e
        | .ok colon =>
          match field.read depth record colon.rest with
          | .error e => .error e
          | .ok r =>
            .ok ⟨(field.name :: seen, r.value), r.rest,
              Nat.lt_trans r.shorter (Nat.lt_trans colon.shorter n.shorter)⟩
    | none =>
      match punctuation ':' n.rest with
      | .error e => .error e
      | .ok colon =>
        match skipMember record colon.rest with
        | .error e => .error e
        | .ok r =>
          .ok ⟨(seen, r.value), r.rest,
            Nat.lt_trans r.shorter (Nat.lt_trans colon.shorter n.shorter)⟩

/-- The fields of a record from the members of an object, up to its closing brace; `s` starts with a
member. -/
def fromMembers (fields : List (Field σ)) (depth : Nat) (seen : List String) (record : σ)
    (s : List Char) : Except Fault (Read σ s) :=
  match oneMember fields depth seen record s with
  | .error e => .error e
  | .ok m =>
    match mark '\x7d' m.rest with
    | .error e => .error e
    | .ok next =>
      have shorter := Nat.lt_trans next.shorter m.shorter
      match next.value with
      | .close =>
        match complete fields m.value.1 m.value.2 with
        | .error e => .error e
        | .ok record => .ok ⟨record, next.rest, shorter⟩
      | .comma =>
        match fromMembers fields depth m.value.1 m.value.2 next.rest with
        | .error e => .error e
        | .ok r => .ok ⟨r.value, r.rest, Nat.lt_trans r.shorter shorter⟩
termination_by s.length

/-- The fields of a record from the members of an object, after its opening brace. -/
def fromObject (fields : List (Field σ)) (depth : Nat) (blank : σ) (s : List Char) :
    Except Fault (Read σ s) :=
  match h : skipSpace s with
  | [] => .error .truncated
  | c :: rest =>
    if c = '\x7d' then
      match complete fields [] blank with
      | .error e => .error e
      | .ok record => .ok ⟨record, rest, length_lt_of_skipSpace h⟩
    else fromMembers fields depth [] blank s

/-- The fault of an array with too few items for a record. -/
def tooShort (title : String) (fields : List (Field σ)) (count : Nat) : Fault :=
  .mismatch ("invalid length " ++ FleetMatch.Numeral.ofNat count ++ ", expected struct " ++ title ++
    " with " ++ FleetMatch.Numeral.ofNat fields.length ++ " elements")

/-- The fields of a record from the items of an array, up to its closing bracket. -/
def fromArray (title : String) (fields : List (Field σ)) (depth : Nat) (blank : σ)
    (s : List Char) : Except Fault (Read σ s) :=
  match fromItems (tooShort title fields) depth 0 fields blank s with
  | .error e => .error e
  | .ok done =>
    match punctuation ']' done.rest with
    | .error e => .error e
    | .ok close => .ok ⟨done.value, close.rest, Nat.lt_of_lt_of_le close.shorter done.noLonger⟩

/-- A record.  Fields that are not written keep their value from `blank`. -/
def record (title : String) (fields : List (Field σ)) (blank : σ) (depth : Nat) : Reader σ :=
  dispatch fun c s =>
    if c = '[' || c = '\x7b' then
      match depth with
      | 0 => .error .malformed
      | depth + 1 =>
        match
          (if c = '[' then fromArray title fields depth blank s
            else fromObject fields depth blank s) with
        | .error e => .error e
        | .ok r => .ok (r.behind c id)
    else .error (unexpected ("struct " ++ title) c s)

end

end FleetMatch.Json
