import FleetMatch.Roster.Client

/-!
# Requests

A request asks for the `k` nearest clients of a place.  It is refused (`Request.check`) if the place
is not finite, and then if it asks for no client at all.
-/

namespace FleetMatch

/-- A request for the nearest clients of a place. -/
structure Request where
  place : Place
  k : Nat
  /-- Who asks; the answer does not depend on it. -/
  requester : ClientId

/-- Why a request is refused. -/
inductive QueryError where
  | notFinite (place : Place)
  | noneWanted (k : Nat)

namespace QueryError

/-- The error in words. -/
def message : QueryError → String
  | .notFinite place =>
    "Invalid query: non-finite location (" ++ Decimal.Layout.plain.text place.x ++ ", " ++
      Decimal.Layout.plain.text place.y ++ ")"
  | .noneWanted k => "Invalid query: k must be at least 1, got " ++ Numeral.ofNat k

/-- The error with all its fields. -/
def detail : QueryError → String
  | .notFinite place =>
    "InvalidCoordinate \x7b x: " ++ Decimal.Layout.exact.text place.x ++ ", y: " ++
      Decimal.Layout.exact.text place.y ++ " \x7d"
  | .noneWanted k => "InvalidK \x7b k: " ++ Numeral.ofNat k ++ " \x7d"

/-- What is told about the error. -/
def failure (e : QueryError) : Failure where
  kind := "QueryError"
  message := e.message
  status := .invalidQuery
  detail := some e.detail
  marks := []
  cause := none

end QueryError

/-- Refuses a request that cannot be answered. -/
def Request.check (r : Request) : Except QueryError Unit :=
  if r.place.isFinite then
    if r.k = 0 then .error (.noneWanted r.k) else .ok ()
  else .error (.notFinite r.place)

end FleetMatch
