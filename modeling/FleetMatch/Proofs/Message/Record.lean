import FleetMatch.Message.Record
import FleetMatch.Proofs.Message.Update
import FleetMatch.Proofs.Text.Utf8

/-!
# Records are faithful lines of JSON

A record stays on one line, is well-formed, and tells whoever reads it what it was made from.

* `MatchEntry.kept_toJson`, `MatchRecord.kept_toJson` — what is kept of records: all but numbers that are not
  finite.
* `MatchRecord.storable_kept`, `MatchRecord.storable_toJson` — this can be written, and it is all of a record
  whose numbers are finite.
* `MatchEntry.TellsOf`, `MatchRecord.TellsOf`: what a value says about a client that was found, and about the
  answer to an update.
* `MatchEntry.TellsOf.text` — a payload that is text is told as it is.
* `MatchRecord.line_faithful` — the line of a record, read as JSON, tells of the answer.
-/

set_option autoImplicit false

namespace FleetMatch

open Json

/-- The value of the first member with this name. -/
def Json.Value.member? (name : String) : Value → Option Value
  | .object members => members.lookup name
  | _ => none

/-- Identifiers can be written at any depth. -/
theorem ClientId.storable_toJson (id : ClientId) {d : ℕ} : Storable d id.toJson := by
  cases id with
  | number n => exact .int (fits64_toInt n)
  | name s => exact .string s

theorem ClientId.kept_toJson (id : ClientId) : id.toJson.kept = id.toJson := by
  cases id <;> rfl

/-- The place and the distance of a neighbour are finite. -/
structure Neighbor.IsFinite (n : Neighbor) : Prop where
  x : n.client.place.x.isFinite = true
  y : n.client.place.y.isFinite = true
  distance : n.distance.isFinite = true

namespace MatchEntry

variable {n : Neighbor}

/-- What is kept of a client: its numbers as far as they are finite, and all else. -/
theorem kept_toJson (e : MatchEntry) : e.toJson.kept = .object
    ([("id", e.id.toJson), ("lon", (Value.ofFloat e.place.x).kept), ("lat", (Value.ofFloat e.place.y).kept),
      ("distance", (Value.ofFloat e.distance).kept)] ++
      match e.payload with
      | some text => [("payload", .string text)]
      | none => []) := by
  rw [toJson, Value.kept, keptMembers_eq_map, List.map_append]
  simp only [List.map_cons, List.map_nil, e.id.kept_toJson]
  cases e.payload <;> rfl

/-- Of every client enough is kept to be written. -/
theorem storable_kept (e : MatchEntry) {d : ℕ} : Storable (d + 1) e.toJson.kept := by
  rw [kept_toJson]
  refine .object ?_
  intro m member
  rcases List.mem_append.1 member with member | member
  · simp only [List.mem_cons, List.not_mem_nil, or_false] at member
    rcases member with rfl | rfl | rfl | rfl
    · exact e.id.storable_toJson
    · exact storable_kept_float _
    · exact storable_kept_float _
    · exact storable_kept_float _
  · split at member
    · cases List.mem_singleton.1 member
      exact .string _
    · cases member

/-- Nothing is lost of a client whose numbers are finite. -/
theorem kept_of_isFinite (h : n.IsFinite) : (ofNeighbor n).toJson.kept = (ofNeighbor n).toJson := by
  have lon : (Value.ofFloat (ofNeighbor n).place.x).kept = .ofFloat (ofNeighbor n).place.x := by
    rw [kept_ofFloat, ofNeighbor, if_pos h.x]
  have lat : (Value.ofFloat (ofNeighbor n).place.y).kept = .ofFloat (ofNeighbor n).place.y := by
    rw [kept_ofFloat, ofNeighbor, if_pos h.y]
  have distance : (Value.ofFloat (ofNeighbor n).distance).kept = .ofFloat (ofNeighbor n).distance := by
    rw [kept_ofFloat, ofNeighbor, if_pos h.distance]
  rw [kept_toJson, toJson]
  cases (ofNeighbor n).payload <;> simp only [lon, lat, distance]

/-- What a value says about a client that was found: who it is, where it is and how far away.  Its payload is
there if it is not empty, as text. -/
structure TellsOf (n : Neighbor) (v : Value) : Prop where
  id : (v.member? "id").bind ClientId.ofJson? = some n.client.id
  lon : v.member? "lon" = some (.ofFloat n.client.place.x)
  lat : v.member? "lat" = some (.ofFloat n.client.place.y)
  distance : v.member? "distance" = some (.ofFloat n.distance)
  payload : n.client.payload ≠ [] →
    v.member? "payload" = some (.string (String.ofList (FleetMatch.Text.Utf8.decodeLossy n.client.payload)))
  noPayload : n.client.payload = [] → v.member? "payload" = none

theorem tellsOf_toJson (n : Neighbor) : TellsOf n (ofNeighbor n).toJson := by
  constructor
  · exact ClientId.ofJson?_toJson _
  · rfl
  · rfl
  · rfl
  · intro some
    have text : (ofNeighbor n).payload =
        .some (String.ofList (FleetMatch.Text.Utf8.decodeLossy n.client.payload)) := by
      rw [ofNeighbor, if_neg (by simpa using some)]
    rw [toJson, text]
    rfl
  · intro none
    have text : (ofNeighbor n).payload = .none := by rw [ofNeighbor, if_pos (by simp [none])]
    rw [toJson, text]
    rfl

/-- A payload that is text is told as it is. -/
theorem TellsOf.text {v : Value} {cs : List Char} (told : TellsOf n v) (nonempty : cs ≠ [])
    (text : n.client.payload = FleetMatch.Text.Utf8.encode cs) :
    v.member? "payload" = some (.string (String.ofList cs)) := by
  have back : FleetMatch.Text.Utf8.text? n.client.payload = some cs := by
    rw [text, FleetMatch.Text.Utf8.text?_encode]
  have payload : n.client.payload ≠ [] := by
    intro empty
    rw [empty, FleetMatch.Text.Utf8.text?_nil] at back
    exact nonempty (Option.some.inj back).symm
  rw [told.payload payload, FleetMatch.Text.Utf8.decodeLossy_of_text? back]

end MatchEntry

namespace MatchRecord

variable {u : PositionUpdate} {version : UInt64} {matchedAt : String} {found : List Neighbor}

/-- What is kept of a record. -/
theorem kept_toJson (r : MatchRecord) : r.toJson.kept = .object
    [("taxiId", r.taxiId.toJson), ("snapshot", .ofInt r.snapshot.toNat), ("matchedAt", .string r.matchedAt),
      ("matches", .array (r.entries.map fun e => e.toJson.kept))] := by
  rw [toJson, Value.kept, keptMembers_eq_map]
  simp only [List.map_cons, List.map_nil, r.taxiId.kept_toJson, Value.kept, keptItems_eq_map, List.map_map]
  rfl

/-- Of every record enough is kept to be written. -/
theorem storable_kept (r : MatchRecord) {d : ℕ} : Storable (d + 3) r.toJson.kept := by
  have few : FleetMatch.Numeral.fits64 r.snapshot.toNat = true := by
    have bound := r.snapshot.toNat_lt
    rw [fits64_iff]
    omega
  rw [kept_toJson]
  refine .object ?_
  intro m member
  simp only [List.mem_cons, List.not_mem_nil, or_false] at member
  rcases member with rfl | rfl | rfl | rfl
  · exact r.taxiId.storable_toJson
  · exact .int few
  · exact .string _
  · refine .array ?_
    intro v hv
    obtain ⟨e, -, rfl⟩ := List.mem_map.1 hv
    exact e.storable_kept

/-- A record can be written if the numbers of its clients are finite. -/
theorem storable_toJson (h : ∀ n ∈ found, n.IsFinite) {d : ℕ} :
    Storable (d + 3) (ofNeighbors u version matchedAt found).toJson := by
  have lossless : (ofNeighbors u version matchedAt found).toJson.kept =
      (ofNeighbors u version matchedAt found).toJson := by
    have clients : ∀ n ∈ found, (MatchEntry.ofNeighbor n).toJson.kept = (MatchEntry.ofNeighbor n).toJson :=
      fun n hn => MatchEntry.kept_of_isFinite (h n hn)
    rw [kept_toJson, toJson, ofNeighbors, List.map_map, List.map_map]
    simp only [Function.comp_def, List.map_congr_left clients]
  rw [← lossless]
  exact storable_kept _

/-- What a value says about the answer to an update: whose it is, which version gave it and when, and of each
client that was found, in their order. -/
structure TellsOf (u : PositionUpdate) (version : UInt64) (matchedAt : String) (found : List Neighbor)
    (v : Value) : Prop where
  taxiId : (v.member? "taxiId").bind ClientId.ofJson? = some u.taxiId
  snapshot : v.member? "snapshot" = some (.ofInt version.toNat)
  matchedAt : v.member? "matchedAt" = some (.string matchedAt)
  clients : ∃ entries, v.member? "matches" = some (.array entries) ∧
    List.Forall₂ MatchEntry.TellsOf found entries

theorem tellsOf_toJson : TellsOf u version matchedAt found (ofNeighbors u version matchedAt found).toJson := by
  constructor
  · exact ClientId.ofJson?_toJson _
  · rfl
  · rfl
  · refine ⟨_, rfl, ?_⟩
    show List.Forall₂ _ found ((found.map MatchEntry.ofNeighbor).map MatchEntry.toJson)
    rw [List.map_map, List.forall₂_map_right_iff]
    exact List.forall₂_same.2 fun n _ => MatchEntry.tellsOf_toJson n

/-- **Records are faithful lines of JSON.**  The line of a record has no control characters, so that it stays
one line; it is well-formed; and it is read as a value that tells of the answer it was made from. -/
theorem line_faithful (u : PositionUpdate) (version : UInt64) (matchedAt : String) (found : List Neighbor)
    (finite : ∀ n ∈ found, n.IsFinite) :
    IsVisible (ofNeighbors u version matchedAt found).line.toList ∧
      IsText .value (ofNeighbors u version matchedAt found).line.toList ∧
      ∃ v, Json.parse (ofNeighbors u version matchedAt found).line.toList = .ok v ∧
        TellsOf u version matchedAt found v := by
  have storable : Storable maxDepth (ofNeighbors u version matchedAt found).toJson := storable_toJson finite
  have written := written_of_storable storable
  rw [line, Value.text, String.toList_ofList]
  exact ⟨written.visible, written.text, _, parse_print storable, tellsOf_toJson⟩

/-- A number and a name that look the same, a payload that is no text, and one that is empty. -/
theorem twins_line_faithful :
    ∃ v, Json.parse (ofNeighbors ⟨1, 1, .name "17"⟩ 18446744073709551615 "2000-02-29T00:00:00.000Z"
        [⟨0.5, ⟨0, ⟨.number 1, ⟨1.5, -2⟩, [0x61, 0xFF]⟩⟩⟩, ⟨3, ⟨1, ⟨.name "1", ⟨0, 0⟩, []⟩⟩⟩]).line.toList = .ok v ∧
      TellsOf ⟨1, 1, .name "17"⟩ 18446744073709551615 "2000-02-29T00:00:00.000Z"
        [⟨0.5, ⟨0, ⟨.number 1, ⟨1.5, -2⟩, [0x61, 0xFF]⟩⟩⟩, ⟨3, ⟨1, ⟨.name "1", ⟨0, 0⟩, []⟩⟩⟩] v := by
  refine (line_faithful _ _ _ _ ?_).2.2
  intro n hn
  simp only [List.mem_cons, List.not_mem_nil, or_false] at hn
  rcases hn with rfl | rfl
  · exact ⟨by decide +kernel, by decide +kernel, by decide +kernel⟩
  · exact ⟨by decide +kernel, by decide +kernel, by decide +kernel⟩

example :
    (ofNeighbors ⟨1, 1, .name "17"⟩ 2 "TIME" [⟨0.5, ⟨0, ⟨.number 1, ⟨1.5, -2⟩, [0x61, 0xFF]⟩⟩⟩]).line =
      "\x7b\"taxiId\":\"17\",\"snapshot\":2,\"matchedAt\":\"TIME\",\"matches\":[" ++
        "\x7b\"id\":1,\"lon\":1.5,\"lat\":-2.0,\"distance\":0.5,\"payload\":\"a\uFFFD\"\x7d]\x7d" := by
  decide +kernel

end MatchRecord

end FleetMatch
