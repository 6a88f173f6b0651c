import FleetMatch.Engine.Basic
import FleetMatch.Message.Update

/-!
# Match records

A record answers an update: which clients are nearest to the taxi, by which version of the index,
and when this was found out.  It is written as one line of JSON.
-/

namespace FleetMatch

/-- A client in a record. -/
structure MatchEntry where
  id : ClientId
  place : Place
  distance : Float
  /-- The payload as text, if the client has one. -/
  payload : Option String

/-- The answer to an update. -/
structure MatchRecord where
  taxiId : ClientId
  snapshot : UInt64
  /-- When the clients were found. -/
  matchedAt : String
  entries : List MatchEntry

namespace MatchEntry

/-- A neighbour as it stands in a record.  What is not text in a payload is replaced. -/
def ofNeighbor (n : Neighbor) : MatchEntry where
  id := n.client.id
  place := n.client.place
  distance := n.distance
  payload :=
    if n.client.payload.isEmpty then none
    else some (String.ofList (Text.Utf8.decodeLossy n.client.payload))

/-- The client as a JSON value. -/
def toJson (e : MatchEntry) : Json.Value :=
  .object
    ([("id", e.id.toJson), ("lon", .ofFloat e.place.x), ("lat", .ofFloat e.place.y),
      ("distance", .ofFloat e.distance)] ++
      match e.payload with
      | some text => [("payload", .string text)]
      | none => [])

end MatchEntry

namespace MatchRecord

/-- The record of neighbours that were found for an update. -/
def ofNeighbors (u : PositionUpdate) (version : UInt64) (matchedAt : String)
    (found : List Neighbor) : MatchRecord :=
  ⟨u.taxiId, version, matchedAt, found.map MatchEntry.ofNeighbor⟩

/-- The record as a JSON value. -/
def toJson (r : MatchRecord) : Json.Value :=
  .object
    [("taxiId", r.taxiId.toJson), ("snapshot", .ofInt r.snapshot.toNat),
      ("matchedAt", .string r.matchedAt), ("matches", .array (r.entries.map MatchEntry.toJson))]

/-- The line of a record. -/
def line (r : MatchRecord) : String := r.toJson.text

end MatchRecord

end FleetMatch
