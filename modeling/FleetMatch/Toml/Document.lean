import FleetMatch.Settings.Setting
import FleetMatch.Toml.Moment

/-!
# TOML documents

A document is a sequence of lines, each of which puts a value under a key or opens a table.  While it
is read, the document is kept as a tree of `Item`s which remembers how each table came to be: that
decides whether a later line may still add to it.

* `putValue?`: a line `key = value`; tables on the way are made as needed.
* `openHere?`, `appendHere?`: a line `[table]` and a line `[[table]]`.
* `parse?`: the table of a whole text, or `none` where the text is not TOML.
-/

namespace FleetMatch.Toml

/-- How a table came to be. -/
inductive Origin where
  /-- By a line of its own. -/
  | opened
  /-- On the way to a table that was opened. -/
  | passed
  /-- By a dotted key, or extended by one. -/
  | dotted
  deriving DecidableEq, Repr

/-- What stands under a key. -/
inductive Item where
  | value (v : Setting)
  | table (origin : Origin) (members : List (String × Item))
  /-- The elements of a list of tables; those before the last one stand in reverse order. -/
  | elements (done : List (List (String × Item))) (last : List (String × Item))

/-- Keys with what stands under them. -/
abbrev Members := List (String × Item)

/-! ## Building the tree -/

/-- Replaces what stands under a key, or adds it at the end. -/
def replaced (key : String) (item : Item) : Members → Members
  | [] => [(key, item)]
  | (k, i) :: rest => if k = key then (k, item) :: rest else (k, i) :: replaced key item rest

/-- Changes the table under a key with `update`, which gets and returns its origin as well.  A table
that is not there is made with the given origin; of a list of tables the last element is changed. -/
def changeUnder? (key : String) (origin : Origin)
    (update : Origin → Members → Option (Origin × Members)) (ms : Members) : Option Members :=
  match ms.lookup key with
  | none => (update origin []).map fun (origin, inner) => replaced key (.table origin inner) ms
  | some (.table found inner) =>
    (update found inner).map fun (origin, inner) => replaced key (.table origin inner) ms
  | some (.elements done last) =>
    (update .opened last).map fun (_, last) => replaced key (.elements done last) ms
  | some (.value _) => none

/-- The item is a table that was opened by a line of its own. -/
def Item.isOpened : Item → Bool
  | .table .opened _ => true
  | _ => false

/-- Puts a value under a key that is not there yet. -/
def putHere? (v : Setting) (key : String) (ms : Members) : Option Members :=
  if (ms.lookup key).isNone then some (ms ++ [(key, .value v)]) else none

/-- Puts a value under a dotted key.  A table on the way must not have been opened; the table that
takes the value counts as made by dotted keys from then on. -/
def putValue? (v : Setting) : List String → Members → Option Members
  | [], _ => none
  | [key], ms => putHere? v key ms
  | [key, last], ms =>
    changeUnder? key .dotted
      (fun origin inner =>
        if origin = .opened then none
        else (putHere? v last inner).map fun inner => (.dotted, inner))
      ms
  | key :: rest, ms =>
    if (ms.lookup key).any Item.isOpened then none
    else
      changeUnder? key .dotted
        (fun origin inner => (putValue? v rest inner).map fun inner => (origin, inner)) ms

/-- Changes the table at a path of opened tables. -/
def within? (update : Members → Option Members) : List String → Members → Option Members
  | [], ms => update ms
  | key :: rest, ms =>
    changeUnder? key .passed
      (fun origin inner => (within? update rest inner).map fun inner => (origin, inner)) ms

/-- Opens the table under a key. -/
def openHere? (key : String) (ms : Members) : Option Members :=
  match ms.lookup key with
  | none => some (ms ++ [(key, .table .opened [])])
  | some (.table .passed inner) => some (replaced key (.table .opened inner) ms)
  | some _ => none

/-- Opens a further element of the list of tables under a key. -/
def appendHere? (key : String) (ms : Members) : Option Members :=
  match ms.lookup key with
  | none => some (ms ++ [(key, .elements [] [])])
  | some (.elements done last) => some (replaced key (.elements (last :: done) []) ms)
  | some _ => none

/-- Applies `update` with the last key of a path to the table at the rest of the path. -/
def atLast? (update : String → Members → Option Members) (path : List String) (ms : Members) :
    Option Members :=
  match path.getLast? with
  | none => none
  | some key => within? (update key) path.dropLast ms

mutual

/-- What stands under a key, as a setting. -/
def Item.toSetting : Item → Setting
  | .value v => v
  | .table _ ms => .table (membersToSettings ms)
  | .elements done last =>
    .list ((elementsToSettings done).reverse ++ [.table (membersToSettings last)])

/-- Keys with what stands under them, as settings. -/
def membersToSettings : List (String × Item) → List (String × Setting)
  | [] => []
  | (key, item) :: rest => (key, item.toSetting) :: membersToSettings rest

/-- The elements of a list of tables, as settings. -/
def elementsToSettings : List (List (String × Item)) → List Setting
  | [] => []
  | ms :: rest => .table (membersToSettings ms) :: elementsToSettings rest

end

/-! ## Values -/

/-- The character may stand in a number, a truth value or a time. -/
def isTokenChar (c : Char) : Bool :=
  c.isAlphanum || c == '_' || c == '-' || c == '+' || c == '.' || c == ':'

/-- The token at the start of a text.  A date may have its time after a single space. -/
def token (s : List Char) : List Char × List Char :=
  let first := s.takeWhile isTokenChar
  let rest := s.dropWhile isTokenChar
  let isDate := match Moment.date? first with
    | some (_, []) => true
    | _ => false
  match rest with
  | ' ' :: c :: _ =>
    if isDate && Numeral.isDigit c then
      let second := (rest.drop 1).takeWhile isTokenChar
      (first ++ ' ' :: second, rest.drop (1 + second.length))
    else (first, rest)
  | _ => (first, rest)

/-- A number, a truth value or a time. -/
def scalar? (s : List Char) : Option (Setting × List Char) :=
  let (word, rest) := token s
  if word = "true".toList then some (.flag true, rest)
  else if word = "false".toList then some (.flag false, rest)
  else
    match integer? word with
    | some n => some (.int n, rest)
    | none =>
      match float? word with
      | some x => some (.float x, rest)
      | none => (Moment.whole? word).map fun text => (.text text, rest)

mutual

/-- A value inside so many lists and tables.  `fuel` bounds the number of values and keys that are
read. -/
def value? (fuel depth : Nat) (s : List Char) : Option (Setting × List Char) :=
  match fuel with
  | 0 => none
  | fuel + 1 =>
    match s with
    | '[' :: rest =>
      if depth < depthLimit then
        (items? fuel (depth + 1) rest).map fun (xs, rest) => (.list xs, rest)
      else none
    | '\x7b' :: rest =>
      if depth < depthLimit then
        (pairs? fuel (depth + 1) [] rest).map fun (ms, rest) => (.table (membersToSettings ms), rest)
      else none
    | '"' :: _ | '\'' :: _ => (string? s).map fun (text, rest) => (.text text, rest)
    | _ => scalar? s

/-- The items of a list, up to its closing bracket. -/
def items? (fuel depth : Nat) (s : List Char) : Option (List Setting × List Char) :=
  match fuel with
  | 0 => none
  | fuel + 1 =>
    match skipLines? s with
    | none => none
    | some (']' :: rest) => some ([], rest)
    | some start =>
      (value? fuel depth start).bind fun (v, rest) =>
        match skipLines? rest with
        | some (',' :: rest) => (items? fuel depth rest).map fun (vs, rest) => (v :: vs, rest)
        | some (']' :: rest) => some ([v], rest)
        | _ => none

/-- The pairs of a table between braces, up to the closing one. -/
def pairs? (fuel depth : Nat) (ms : Members) (s : List Char) : Option (Members × List Char) :=
  match fuel with
  | 0 => none
  | fuel + 1 =>
    match skipLines? s with
    | none => none
    | some ('\x7d' :: rest) => some (ms, rest)
    | some start =>
      (pair? fuel depth start).bind fun (keys, v, rest) =>
        (putValue? v keys ms).bind fun ms =>
          match skipLines? rest with
          | some (',' :: rest) => pairs? fuel depth ms rest
          | some ('\x7d' :: rest) => some (ms, rest)
          | _ => none

/-- A dotted key with its value.  There may be line ends around the equals sign. -/
def pair? (fuel depth : Nat) (s : List Char) : Option (List String × Setting × List Char) :=
  match fuel with
  | 0 => none
  | fuel + 1 =>
    (keys? s).bind fun (keys, rest) =>
      match skipLines? rest with
      | some ('=' :: rest) =>
        (skipLines? rest).bind fun start =>
          (value? fuel depth start).map fun (v, rest) => (keys, v, rest)
      | _ => none

end

/-! ## Lines -/

/-- A document while it is read: its tree and the table that was opened last. -/
structure Progress where
  root : Members
  current : List String

/-- A line that puts a value under a key; `fuel` bounds the size of the value. -/
def pairLine? (fuel : Nat) (p : Progress) (s : List Char) : Option (Progress × List Char) :=
  (keys? s).bind fun (keys, rest) =>
    match rest with
    | '=' :: rest =>
      (value? fuel 0 (skipBlanks rest)).bind fun (v, rest) =>
        (within? (putValue? v keys) p.current p.root).bind fun root =>
          (endOfLine? rest).map fun rest => (⟨root, p.current⟩, rest)
    | _ => none

/-- A line that opens a table or a further element of a list of tables. -/
def headerLine? (p : Progress) (s : List Char) : Option (Progress × List Char) :=
  let opened (keys : List String) (root : Option Members) (rest : List Char) :
      Option (Progress × List Char) :=
    root.bind fun root => (endOfLine? rest).map fun rest => (⟨root, keys⟩, rest)
  match s with
  | '[' :: rest =>
    (keys? rest).bind fun (keys, rest) =>
      match rest with
      | ']' :: ']' :: rest => opened keys (atLast? appendHere? keys p.root) rest
      | _ => none
  | _ =>
    (keys? s).bind fun (keys, rest) =>
      match rest with
      | ']' :: rest => opened keys (atLast? openHere? keys p.root) rest
      | _ => none

/-- The lines of a document; `fuel` bounds their number, `most` the size of a value. -/
def lines? (fuel most : Nat) (p : Progress) (s : List Char) : Option Members :=
  match fuel with
  | 0 => none
  | fuel + 1 =>
    match skipLines? s with
    | none => none
    | some [] => some p.root
    | some ('[' :: rest) => (headerLine? p rest).bind fun (p, rest) => lines? fuel most p rest
    | some start => (pairLine? most p start).bind fun (p, rest) => lines? fuel most p rest

/-- The text without a byte order mark at its start. -/
def unmarked : List Char → List Char
  | '\ufeff' :: s => s
  | s => s

/-- The members of the table that a whole text is. -/
def parse? (s : List Char) : Option (List (String × Setting)) :=
  (lines? (s.length + 1) (3 * s.length + 3) ⟨[], []⟩ (unmarked s)).map membersToSettings

end FleetMatch.Toml
