import FleetMatch.Decimal.Layout
import FleetMatch.Failure
import FleetMatch.Geo.Point
import FleetMatch.Roster.Id
import FleetMatch.Text.Quoted
import Std.Data.TreeMap

/-!
# Rosters

A roster is a list of clients in the order of the input.  An index is made only of a roster that
passes `Roster.check`: every place is finite and no identifier comes twice.  The check names the
first client that breaks a rule; of the two rules the one about places comes first.
-/

namespace FleetMatch

/-- Someone or something at a fixed place.  The payload is carried along unread. -/
structure Client where
  id : ClientId
  place : Place
  payload : List UInt8

/-- Clients in the order of the input. -/
abbrev Roster := List Client

/-- Why a roster is refused. -/
inductive RosterError where
  /-- The place of a client is not finite. -/
  | notFinite (id : String) (position : Nat) (place : Place)
  /-- An identifier stands at two positions. -/
  | duplicate (id : String) (first second : Nat)

namespace RosterError

/-- The position at which the check stopped. -/
def position : RosterError → Nat
  | .notFinite _ position _ => position
  | .duplicate _ _ second => second

/-- The broken rule in words. -/
def reason : RosterError → String
  | .notFinite id position place =>
    "Invalid coordinate for point '" ++ id ++ "' at position " ++ Numeral.ofNat position ++ ": (" ++
      Decimal.Layout.plain.text place.x ++ ", " ++ Decimal.Layout.plain.text place.y ++ ")"
  | .duplicate id first second =>
    "Duplicate point id '" ++ id ++ "' at positions " ++ Numeral.ofNat first ++ " and " ++
      Numeral.ofNat second

/-- The error in words. -/
def message (e : RosterError) : String := "Index build failed: " ++ e.reason

/-- The status of the error. -/
def status : RosterError → Status
  | .notFinite .. => .invalidCoordinate
  | .duplicate .. => .duplicateId

/-- The error with all its fields. -/
def detail : RosterError → String
  | .notFinite id position place =>
    "InvalidCoordinate(InvalidCoordinateError \x7b id: " ++ Text.quoted id ++ ", position: " ++
      Numeral.ofNat position ++ ", x: " ++ Decimal.Layout.exact.text place.x ++ ", y: " ++
      Decimal.Layout.exact.text place.y ++ " \x7d)"
  | .duplicate id first second =>
    "DuplicateId(DuplicateIdError \x7b id: " ++ Text.quoted id ++ ", first: " ++
      Numeral.ofNat first ++ ", second: " ++ Numeral.ofNat second ++ " \x7d)"

/-- What is told about the error. -/
def failure (e : RosterError) : Failure where
  kind := "BuildError"
  message := e.message
  status := e.status
  detail := some e.detail
  marks := [("position", Numeral.ofNat e.position)]
  label := "build"
  cause := some e.reason

end RosterError

namespace Roster

/-- Checks the clients from a position on.  `seen` holds the identifiers of those before it with
their positions. -/
def checkFrom (position : Nat) (seen : Std.TreeMap ClientId Nat) :
    List Client → Except RosterError Unit
  | [] => .ok ()
  | client :: rest =>
    if client.place.isFinite then
      match seen[client.id]? with
      | some first => .error (.duplicate client.id.display first position)
      | none => checkFrom (position + 1) (seen.insert client.id position) rest
    else .error (.notFinite client.id.display position client.place)

/-- Every place is finite and no identifier comes twice, or the first client that breaks a rule. -/
def check (roster : Roster) : Except RosterError Unit := checkFrom 0 ∅ roster

end Roster

end FleetMatch
