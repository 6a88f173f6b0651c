import FleetMatch.Status
import FleetMatch.Text.Quoted

/-!
# Failures

A `Failure` is what is told about an error: in words for the user, in detail for the log, and as
tags for those who count errors.  Every error type of the library has a function to it.
-/

namespace FleetMatch

/-- What is told about an error. -/
structure Failure where
  /-- The name of the kind of error. -/
  kind : String
  /-- The error in words. -/
  message : String
  status : Status
  /-- The error with all its fields, unless these belong to someone else. -/
  detail : Option String
  /-- What else is counted, beside kind and status. -/
  marks : List (String × String)
  /-- The kind under which the error is counted. -/
  label : String := kind
  /-- The cause in words, if there is one. -/
  cause : Option String

namespace Failure

/-- What a user is told; nothing about the inside of the program. -/
def clientMessage (f : Failure) : String :=
  if f.status = .internal then "Internal error" else f.message

/-- What is counted. -/
def tags (f : Failure) : List (String × String) :=
  ("error_type", f.label) :: ("status_code", f.status.display) :: f.marks

/-- An error of which nothing is known but its kind and its words. -/
def ofWords (kind words : String) : Failure where
  kind := kind
  message := words
  status := .internal
  detail := some (kind ++ "(" ++ Text.quoted words ++ ")")
  marks := []
  cause := none

end Failure

end FleetMatch
