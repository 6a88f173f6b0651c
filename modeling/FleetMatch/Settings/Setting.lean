import FleetMatch.Decimal.Layout
import FleetMatch.Decimal.Numeral
import FleetMatch.Scalar.Parts
import FleetMatch.Text.Case

/-!
# Layers of settings

Settings are put together from layers, each of which holds values under names.  A value may be a
whole table of further values.

* `Setting.merge`: puts one value over another.  A table is put into a table name by name; anything
  else replaces what was there.
* `Setting.put`: puts a value at a path.  What stands in the way of the path is replaced.
* `Setting.text?`, `Setting.flag?`, `Setting.count?`, `Setting.choice?`: a value read as what is
  wanted.  Layers hold whatever their format can tell apart, so numbers, words and truth values are
  taken for one another where that makes sense.
-/

namespace FleetMatch

/-- A value in a layer. -/
inductive Setting where
  | nothing
  | flag (b : Bool)
  | int (n : Int)
  | float (x : Float)
  | text (s : String)
  | list (items : List Setting)
  | table (members : List (String × Setting))

namespace Setting

/-! ## Putting layers together -/

/-- The members of a table; anything else has none. -/
def members : Setting → List (String × Setting)
  | .table ms => ms
  | _ => []

/-- The items of a list; anything else has none. -/
def items : Setting → List Setting
  | .list xs => xs
  | _ => []

/-- Replaces the value under a name, or adds it at the end. -/
def replaced (name : String) (v : Setting) : List (String × Setting) → List (String × Setting)
  | [] => [(name, v)]
  | (n, w) :: rest => if n = name then (n, v) :: rest else (n, w) :: replaced name v rest

mutual

/-- A value put over another one. -/
def merge (base : Setting) : Setting → Setting
  | .table ms => .table (mergeMembers base.members ms)
  | v => v

/-- Members put over those of a table. -/
def mergeMembers (base : List (String × Setting)) :
    List (String × Setting) → List (String × Setting)
  | [] => base
  | (name, v) :: rest =>
    mergeMembers (replaced name (merge ((base.lookup name).getD .nothing) v) base) rest

end

/-- A step of a path: to a member of a table, or to an item of a list, counted from its end if
negative. -/
inductive Step where
  | name (s : String)
  | position (i : Int)
  deriving DecidableEq, Repr

/-- The greatest number of items that a list is filled up to. -/
def mostItems : Nat := 0x1000000

/-- Replaces an item of a list.  The list is filled up as far as needed, at its start for a position
before it.  A list that would become too long stays as it is. -/
def replacedAt (i : Int) (update : Setting → Setting) (xs : List Setting) : List Setting :=
  let index := if 0 ≤ i then i else xs.length + i
  if mostItems < index.natAbs then xs
  else if index < 0 then
    update .nothing :: (List.replicate (index.natAbs - 1) .nothing ++ xs)
  else
    let filled := xs ++ List.replicate (index.toNat + 1 - xs.length) .nothing
    filled.modify index.toNat update

/-- A value put at a path under another one. -/
def put (v : Setting) : List Step → Setting → Setting
  | [], base => merge base v
  | .name s :: rest, base =>
    .table (replaced s (put v rest ((base.members.lookup s).getD .nothing)) base.members)
  | .position i :: rest, base => .list (replacedAt i (put v rest) base.items)

/-! ## Paths -/

/-- The character may stand in a name of a path. -/
def isNameChar (c : Char) : Bool := c.isAlphanum || c == '_' || c == '-'

/-- A space or a tab. -/
def isSpace (c : Char) : Bool := c == ' ' || c == '\t'

/-- The position that is written up to a closing bracket, after the opening one: an integer of 64
bits without a plus sign, with spaces around it. -/
def position? (s : List Char) : Option (Int × List Char) :=
  let start := s.dropWhile isSpace
  let (minus, unsigned) :=
    match start with
    | '-' :: rest => (true, rest)
    | _ => (false, start)
  match (unsigned.dropWhile Numeral.isDigit).dropWhile isSpace with
  | ']' :: rest =>
    (Numeral.nat? (unsigned.takeWhile Numeral.isDigit)).bind fun n =>
      let i : Int := if minus then -n else n
      if Numeral.fitsInt64 i then some (i, rest) else none
  | _ => none

/-- The steps after a name; `fuel` bounds their number. -/
def stepsAfter? (fuel : Nat) : List Char → Option (List Step)
  | [] => some []
  | c :: rest =>
    match fuel with
    | 0 => none
    | fuel + 1 =>
      if c = '.' then
        let name := rest.takeWhile isNameChar
        if name.isEmpty then none
        else
          (stepsAfter? fuel (rest.dropWhile isNameChar)).map (.name (String.ofList name) :: ·)
      else if c = '[' then
        (position? rest).bind fun (i, after) => (stepsAfter? fuel after).map (.position i :: ·)
      else none

/-- The path that a key writes with points and brackets.  A key that is no path is one name. -/
def path (key : String) : List Step :=
  let cs := key.toList
  let first := cs.takeWhile isNameChar
  if first.isEmpty then [.name key]
  else
    match stepsAfter? cs.length (cs.dropWhile isNameChar) with
    | some steps => .name (String.ofList first) :: steps
    | none => [.name key]

/-- A layer put over another one.  The keys of the upper layer are paths. -/
def overlay (base : Setting) (layer : List (String × Setting)) : Setting :=
  layer.foldl (fun acc member => put member.2 (path member.1) acc) base

/-! ## Reading values -/

/-- The words for yes and no. -/
def word? (s : String) : Option Bool :=
  let w := Text.lowered s
  if ["true", "on", "yes"].contains w then some true
  else if ["false", "off", "no"].contains w then some false
  else none

/-- A value as text. -/
def text? : Setting → Option String
  | .text s => some s
  | .flag b => some (if b then "true" else "false")
  | .int n => some (Numeral.ofInt n)
  | .float x => some (Decimal.Layout.plain.text x)
  | _ => none

/-- A value as a truth value; every number but zero is true. -/
def flag? : Setting → Option Bool
  | .flag b => some b
  | .int n => some (n != 0)
  | .float x => some (x != 0.0)
  | .text s => if s = "1" then some true else if s = "0" then some false else word? s
  | _ => none

/-- The nearest natural number of 64 bits, zero for what is no number. -/
def nearestCount (x : Float) : Nat :=
  if x.isNaN || x < 0.0 then 0
  else if x.isFinite then min (Scalar.Parts.ofFloat x).roundAway.toNat (UInt64.size - 1)
  else UInt64.size - 1

/-- A value as a natural number of 64 bits. -/
def count? : Setting → Option Nat
  | .int n => if n < 0 then none else some n.toNat
  | .flag b => some (if b then 1 else 0)
  | .float x => some (nearestCount x)
  | .text s =>
    match word? s with
    | some b => some (if b then 1 else 0)
    | none => Numeral.uint64? s.toList
  | _ => none

/-- A value as one of some words.  A table with a single member is taken for the name of that
member. -/
def choice? {α : Type} (options : List (String × α)) (v : Setting) : Option α :=
  let named (name : String) : Option α :=
    (options.find? fun option => option.1 == name).map Prod.snd
  match v with
  | .text s => named s
  | .table [(name, _)] => named name
  | _ => none

/-- A part of a record: the value under a name of a table, or at a position of a list. -/
def part? (position : Nat) (name : String) : Setting → Option Setting
  | .table ms => ms.lookup name
  | .list xs => xs[position]?
  | _ => none

/-- The value can be a record. -/
def isRecord : Setting → Bool
  | .table _ | .list _ => true
  | _ => false

/-- A part of a record, read with `read?` if it is there and `default` if it is not. -/
def partOr? {α : Type} (position : Nat) (name : String) (read? : Setting → Option α) (default : α)
    (v : Setting) : Option α :=
  match v.part? position name with
  | some part => read? part
  | none => some default

end Setting

end FleetMatch
