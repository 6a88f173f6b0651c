import FleetMatch.Decimal.Numeral

/-!
# Status codes

Every failure has a status.  Its code tells by its thousands what the failure is about: 1 the
program itself, 2 what it was given, 5 the index, 6 reading and writing, 8 text formats.

* `Status.code`, `Status.ofCode?`: the number of a status and the status of a number.
* `Status.display`: name and number, as they stand in logs.
* `Status.isRetryable`, `Status.severity`: what to do about a status and how loud to be about it.
-/

namespace FleetMatch

/-- How important a message is. -/
inductive Severity where
  | trace
  | debug
  | info
  | warn
  | error
  deriving DecidableEq, Repr

/-- The name of a severity. -/
def Severity.name : Severity → String
  | .trace => "Trace"
  | .debug => "Debug"
  | .info => "Info"
  | .warn => "Warn"
  | .error => "Error"

/-- Severities in ascending order, from zero. -/
def Severity.rank : Severity → Nat
  | .trace => 0
  | .debug => 1
  | .info => 2
  | .warn => 3
  | .error => 4

/-- The outcome of an operation. -/
inductive Status where
  | success
  | internal
  | invalidConfig
  | notFound
  | invalidData
  | invalidCoordinate
  | duplicateId
  | invalidQuery
  | emptyIndex
  | indexBuildFailed
  | io
  | permissionDenied
  | timeout
  | unexpectedEof
  | invalidUtf8
  | invalidJson
  deriving DecidableEq, Repr

namespace Status

/-- All statuses, by ascending code. -/
def all : List Status :=
  [.success, .internal, .invalidConfig, .notFound, .invalidData, .invalidCoordinate, .duplicateId,
    .invalidQuery, .emptyIndex, .indexBuildFailed, .io, .permissionDenied, .timeout,
    .unexpectedEof, .invalidUtf8, .invalidJson]

/-- The number of a status. -/
def code : Status → Nat
  | .success => 0
  | .internal => 1000
  | .invalidConfig => 1001
  | .notFound => 2000
  | .invalidData => 2001
  | .invalidCoordinate => 2002
  | .duplicateId => 2003
  | .invalidQuery => 2004
  | .emptyIndex => 2005
  | .indexBuildFailed => 5000
  | .io => 6000
  | .permissionDenied => 6001
  | .timeout => 6002
  | .unexpectedEof => 6003
  | .invalidUtf8 => 8000
  | .invalidJson => 8001

/-- The name of a status. -/
def name : Status → String
  | .success => "Success"
  | .internal => "Internal"
  | .invalidConfig => "InvalidConfig"
  | .notFound => "NotFound"
  | .invalidData => "InvalidData"
  | .invalidCoordinate => "InvalidCoordinate"
  | .duplicateId => "DuplicateId"
  | .invalidQuery => "InvalidQuery"
  | .emptyIndex => "EmptyIndex"
  | .indexBuildFailed => "IndexBuildFailed"
  | .io => "Io"
  | .permissionDenied => "PermissionDenied"
  | .timeout => "Timeout"
  | .unexpectedEof => "UnexpectedEof"
  | .invalidUtf8 => "InvalidUtf8"
  | .invalidJson => "InvalidJson"

/-- The status with a given number. -/
def ofCode? (n : Nat) : Option Status := all.find? fun s => s.code == n

/-- Name and number. -/
def display (s : Status) : String := s.name ++ " (" ++ Numeral.ofNat s.code ++ ")"

/-- The number is that of success. -/
def isSuccess (n : Nat) : Bool := n == code .success

/-- A later attempt may succeed. -/
def isRetryable : Status → Bool
  | .timeout | .io | .unexpectedEof => true
  | _ => false

/-- The failure lies in what was given. -/
def isClientError (s : Status) : Bool := 2000 ≤ s.code && s.code ≤ 2999

/-- The failure lies in the program or in what it runs on. -/
def isServerError (s : Status) : Bool :=
  (1000 ≤ s.code && s.code ≤ 1999) || (5000 ≤ s.code && s.code ≤ 6999)

/-- The failure lies in the form of a text. -/
def isParseError (s : Status) : Bool := 8000 ≤ s.code && s.code ≤ 8999

/-- The failure should wake someone up. -/
def isCritical (s : Status) : Bool := s == .internal

/-- How important a message about the status is. -/
def severity : Status → Severity
  | .success => .trace
  | .notFound => .debug
  | .invalidQuery | .invalidData | .invalidJson => .info
  | .internal | .invalidConfig => .error
  | _ => .warn

theorem ofCode?_code (s : Status) : ofCode? s.code = some s := by cases s <;> rfl

end Status

end FleetMatch
