import FleetMatch.Engine.Request
import FleetMatch.Json.Decoder
import FleetMatch.LoadError

/-!
# Position updates

An update tells where a taxi is.  It is one JSON object with the members `lon`, `lat` and `taxiId`;
members with other names do not count.

* `ClientId.reader`: reads an identifier, which is an integer of 64 bits or a string.
* `PositionUpdate.parse`: the update of a line.
* `PositionUpdate.request`: the request for the nearest clients of the taxi.
-/

namespace FleetMatch

namespace ClientId

/-- The identifier that a JSON value stands for. -/
def ofJson? : Json.Value → Option ClientId
  | .number (.int n) => if Numeral.fitsInt64 n then some (.number (Int64.ofInt n)) else none
  | .string s => some (.name s)
  | _ => none

/-- Reads an identifier.  Any value is read to its end before it is judged. -/
def reader (depth : Nat) : Json.Reader ClientId := fun s =>
  match Json.value (.full .stepwise) (some depth) s with
  | .error e => .error e
  | .ok r =>
    match ofJson? r.value with
    | some id => .ok ⟨id, r.rest, r.shorter⟩
    | none =>
      .error (.mismatch "data did not match any variant of untagged enum PointId")

end ClientId

/-- Where a taxi is. -/
structure PositionUpdate where
  lon : Float
  lat : Float
  taxiId : ClientId

namespace PositionUpdate

/-- The fields of an update. -/
def fields : List (Json.Field PositionUpdate) :=
  [.required "lon" (fun _ => Json.float) fun u x => { u with lon := x },
    .required "lat" (fun _ => Json.float) fun u y => { u with lat := y },
    .required "taxiId" ClientId.reader fun u id => { u with taxiId := id }]

/-- Reads an update. -/
def reader (depth : Nat) : Json.Reader PositionUpdate :=
  Json.record "PositionUpdate" fields ⟨0, 0, .number 0⟩ depth

/-- The update of a line; blanks around it do not count. -/
def parse (line : List Char) : Except LoadError PositionUpdate :=
  match Json.readAll reader (Text.trim line) with
  | .ok u => .ok u
  | .error fault => .error (.invalidUpdate fault)

/-- The update as a JSON value. -/
def toJson (u : PositionUpdate) : Json.Value :=
  .object [("lon", .ofFloat u.lon), ("lat", .ofFloat u.lat), ("taxiId", u.taxiId.toJson)]

/-- Where the taxi is. -/
def place (u : PositionUpdate) : Place := ⟨u.lon, u.lat⟩

/-- The request for the `k` nearest clients of the taxi. -/
def request (u : PositionUpdate) (k : Nat) : Request := ⟨u.place, k, u.taxiId⟩

end PositionUpdate

end FleetMatch
