import FleetMatch.Decimal.Literal
import FleetMatch.LoadError
import FleetMatch.Roster.Client
import FleetMatch.Text.Lines

/-!
# Rosters as rows of text

A row has the columns identifier, longitude, latitude and, if wanted, a payload, with a delimiter
between them.  Blanks around a row and around a column do not count.  Blank rows and rows that start
with `#` are skipped; after a header has been announced the first other row is skipped too.

* `RowFormat.columns`: the columns of a row, four at most; the last one may hold delimiters.
* `RowFormat.client`: the client of a row, or what is wrong with the row.
* `RowFormat.read`: the roster of a file, or the first thing that is wrong with the file.
-/

namespace FleetMatch

/-- How rows are written. -/
structure RowFormat where
  delimiter : Char := ','
  /-- The first row is a header. -/
  header : Bool := false
  deriving DecidableEq, Repr

/-- What is wrong with a row. -/
inductive RowFault where
  | tooFewColumns (delimiter : Char)
  | blankId
  /-- The text of a coordinate is no number. -/
  | badCoordinate (name : String) (raw : String) (error : Decimal.Literal.Error)
  deriving DecidableEq, Repr

/-- The fault in words. -/
def RowFault.message : RowFault → String
  | .tooFewColumns delimiter =>
    "expected at least 3 fields separated by '" ++ String.ofList [delimiter] ++ "'"
  | .blankId => "empty id"
  | .badCoordinate name raw error => "invalid " ++ name ++ " '" ++ raw ++ "': " ++ error.message

namespace RowFormat

/-- The pieces of a text between delimiters, after at most `cuts` cuts. -/
def pieces (delimiter : Char) (cuts : Nat) (cs : List Char) : List (List Char) :=
  match cuts with
  | 0 => [cs]
  | cuts + 1 =>
    if cs.contains delimiter then
      cs.takeWhile (· != delimiter) ::
        pieces delimiter cuts ((cs.dropWhile (· != delimiter)).drop 1)
    else [cs]

/-- The columns of a row, without the blanks around them. -/
def columns (f : RowFormat) (row : List Char) : List (List Char) :=
  (pieces f.delimiter 3 row).map Text.trim

/-- The value of a coordinate. -/
def coordinate (name : String) (raw : List Char) : Except RowFault Float :=
  match Decimal.Literal.read raw with
  | .ok x => .ok x
  | .error e => .error (.badCoordinate name (String.ofList raw) e)

/-- The client of a row, or what is wrong with the row. -/
def client (f : RowFormat) (row : List Char) : Except RowFault Client :=
  match f.columns row with
  | id :: lon :: lat :: rest =>
    if id.isEmpty then .error .blankId
    else
      match coordinate "longitude" lon with
      | .error e => .error e
      | .ok x =>
        match coordinate "latitude" lat with
        | .error e => .error e
        | .ok y =>
          .ok ⟨ClientId.parse (String.ofList id), ⟨x, y⟩, Text.Utf8.encode (rest.headD [])⟩
  | _ => .error (.tooFewColumns f.delimiter)

/-- The row holds neither a client nor a header. -/
def isSkipped (row : List Char) : Bool := row.isEmpty || row.head? == some '#'

/-- The clients of lines.  `number` is the number of the first line; `pending` tells whether a header
is still to come. -/
def fromLines (f : RowFormat) (path : String) (number : Nat) (pending : Bool) :
    List (List UInt8) → Except LoadError Roster
  | [] => .ok []
  | line :: rest =>
    match Text.Utf8.decode line with
    | .error _ =>
      .error (.unreadable path .invalidData "stream did not contain valid UTF-8")
    | .ok text =>
      let row := Text.trim text
      if isSkipped row then fromLines f path (number + 1) pending rest
      else if pending then fromLines f path (number + 1) false rest
      else
        match f.client row with
        | .error e => .error (.invalidRow number e.message)
        | .ok client =>
          match fromLines f path (number + 1) false rest with
          | .error e => .error e
          | .ok clients => .ok (client :: clients)

/-- The roster of a file with the given contents.  The path is what errors call the file. -/
def read (f : RowFormat) (path : String) (contents : List UInt8) : Except LoadError Roster :=
  fromLines f path 1 f.header (Text.Lines.split contents)

end RowFormat

end FleetMatch
