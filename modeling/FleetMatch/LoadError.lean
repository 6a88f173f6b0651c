import FleetMatch.Failure
import FleetMatch.Json.Scanner

/-!
# What can go wrong while reading

Rosters are read from files of rows, and updates from lines of JSON.  A `LoadError` says which
file, row or update could not be read, and why.
-/

namespace FleetMatch

/-- Why a file could not be read. -/
inductive ReadFault where
  | notFound
  | permissionDenied
  | timedOut
  | unexpectedEof
  /-- The contents are not text. -/
  | invalidData
  | other
  deriving DecidableEq, Repr

/-- The status of a file that could not be read. -/
def ReadFault.status : ReadFault → Status
  | .notFound => .notFound
  | .permissionDenied => .permissionDenied
  | .timedOut => .timeout
  | .unexpectedEof => .unexpectedEof
  | .invalidData => .invalidUtf8
  | .other => .io

/-- The fault in words. -/
def Json.Fault.message : Json.Fault → String
  | .malformed => "malformed JSON text"
  | .truncated => "unexpected end of JSON text"
  | .mismatch message => message

/-- Why a roster or an update could not be read. -/
inductive LoadError where
  /-- A file could not be read. -/
  | unreadable (path : String) (fault : ReadFault) (reason : String)
  /-- A row of a roster is not one of a client; lines are counted from one. -/
  | invalidRow (line : Nat) (reason : String)
  /-- A line is not an update. -/
  | invalidUpdate (fault : Json.Fault)
  deriving DecidableEq, Repr

namespace LoadError

/-- The error in words. -/
def message : LoadError → String
  | .unreadable path _ reason => "Failed to read '" ++ path ++ "': " ++ reason
  | .invalidRow line reason => "Invalid row at line " ++ Numeral.ofNat line ++ ": " ++ reason
  | .invalidUpdate fault => "Invalid position update: " ++ fault.message

/-- The status of the error. -/
def status : LoadError → Status
  | .unreadable _ fault _ => fault.status
  | .invalidRow .. => .invalidData
  | .invalidUpdate _ => .invalidJson

/-- The error with all its fields, if they are fields of this library. -/
def detail : LoadError → Option String
  | .invalidRow line reason =>
    some ("InvalidRow \x7b line: " ++ Numeral.ofNat line ++ ", reason: " ++ Text.quoted reason ++
      " \x7d")
  | _ => none

/-- What caused the error, in words. -/
def cause : LoadError → Option String
  | .unreadable _ _ reason => some reason
  | .invalidRow .. => none
  | .invalidUpdate fault => some fault.message

/-- What is told about the error. -/
def failure (e : LoadError) : Failure where
  kind := "LoadError"
  message := e.message
  status := e.status
  detail := e.detail
  marks :=
    match e with
    | .invalidRow line _ => [("line", Numeral.ofNat line)]
    | _ => []
  cause := e.cause

end LoadError

end FleetMatch
