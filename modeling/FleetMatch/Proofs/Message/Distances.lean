import FleetMatch.Proofs.Distance.Overflow
import FleetMatch.Proofs.Index.AnyMetric
import FleetMatch.Proofs.Message.Record
import FleetMatch.Proofs.Text.Utf8

/-!
# Distances in records

A record tells the distance of every client that was found, unless it is not finite: what is written then is
`null`.  With planar distances this happens to clients at finite places too, as soon as a square overflows.

* `Neighbor.ToldBy`: what a record says about the distance of a client.
* `MatchRecord.parse_line` — every record is read as what is kept of it.
* `MatchRecord.distances_told` — what an index of planar distances finds for an update, and what the record
  of the answer says about the distances.
* `MatchRecord.distance_lost` — a distance that is not told, though it is no larger than other numbers that
  are.
-/

set_option autoImplicit false

namespace FleetMatch

open Json Scalar

theorem Request.isFinite_of_check {r : Request} (fit : r.check = .ok ()) : r.place.isFinite = true := by
  rw [check] at fit
  split at fit
  · rename_i finite
    exact finite
  · cases fit

/-- What is said about the distance between a place and a client at another one. -/
structure Neighbor.ToldBy (q : Place) (n : Neighbor) (entry : Value) : Prop where
  /-- The distance is a number, and not a negative one. -/
  number : n.distance.isNaN = false ∧ 0 ≤ value n.distance
  /-- It is finite exactly if the sum of the squares does not overflow, and then it is the root of this sum. -/
  finite_iff : n.distance.isFinite = true ↔ Euclidean.squares q n.client.place < limit
  root : n.distance.isFinite = true → value n.distance = nearest √(Euclidean.squares q n.client.place)
  /-- It is finite up to a difference of `2 ^ 511` on both axes. -/
  near : |value n.client.place.x - value q.x| ≤ 2 ^ 511 → |value n.client.place.y - value q.y| ≤ 2 ^ 511 →
    n.distance.isFinite = true
  /-- It is not finite from a difference of `2 ^ 512` on either axis. -/
  far : 2 ^ 512 ≤ |value n.client.place.x - value q.x| ∨ 2 ^ 512 ≤ |value n.client.place.y - value q.y| →
    n.distance.isFinite = false
  /-- It is told if it is finite, and otherwise there is a null in its place. -/
  told : entry.member? "distance" = some (if n.distance.isFinite then .ofFloat n.distance else .null)

/-- What is said about the distance of a client at a finite place. -/
theorem Neighbor.toldBy_kept {q : Place} {n : Neighbor} (hq : q.isFinite = true)
    (hp : n.client.place.isFinite = true) (measured : n.distance = Euclidean.distance q n.client.place) :
    n.ToldBy q (MatchEntry.ofNeighbor n).toJson.kept := by
  have finite := Euclidean.distance_isFinite_iff hq hp
  rw [← measured] at finite
  constructor
  · rw [measured]
    exact Euclidean.distance_number hq hp
  · exact finite
  · intro small
    rw [measured]
    exact Euclidean.value_distance hq hp (finite.1 small)
  · intro nearX nearY
    exact finite.2 (Euclidean.squares_lt_of_near nearX nearY)
  · intro far
    rw [Bool.eq_false_iff, Ne, finite, Euclidean.squares_eq_of_far far]
    exact lt_irrefl _
  · rw [MatchEntry.kept_toJson, ← kept_ofFloat]
    rfl

namespace MatchRecord

/-- **Every record is read as what is kept of it.** -/
theorem parse_line (r : MatchRecord) : Json.parse r.line.toList = .ok r.toJson.kept := by
  rw [line, Value.text, String.toList_ofList]
  exact parse_print_kept r.storable_kept

variable {halving : Halving} {capacity : LeafCapacity} {roster : Roster} {ix : Index} {u : PositionUpdate}
  {k : ℕ}

/-- **What is told of planar distances.**  Whatever index was built and whatever update may be answered, the
answer exists, and in the record of the answer stands the distance of every client exactly if the sum of the
squares does not overflow.  Otherwise the distance is infinite, and there is a null in its place. -/
theorem distances_told (built : Index.buildBy? halving ⟨.euclidean, capacity⟩ roster = .ok ix)
    (fit : (u.request k).check = .ok ()) (agenda : Agenda) (version : UInt64) (matchedAt : String) :
    ∃ found v entries, ix.nearestBy agenda u.place k = some found ∧ found.length = min k roster.length ∧
      Json.parse (ofNeighbors u version matchedAt found).line.toList = .ok v ∧
      v.member? "matches" = some (.array entries) ∧ List.Forall₂ (Neighbor.ToldBy u.place) found entries := by
  have finite := Request.isFinite_of_check fit
  have places : ∀ e ∈ roster.entries, e.place.isFinite = true :=
    Roster.isFinite_of_check (Index.buildBy?_eq_ok built).1
  obtain ⟨found, answer, listing, length, -⟩ :=
    Index.nearestBy_listing built (Metric.euclidean_boundsProper u.place) agenda k
  refine ⟨found, _, found.map fun n => (MatchEntry.ofNeighbor n).toJson.kept, answer, length, parse_line _,
    ?_, ?_⟩
  · rw [kept_toJson, ofNeighbors, List.map_map]
    rfl
  · rw [List.forall₂_map_right_iff, List.forall₂_same]
    intro n hn
    obtain ⟨held, measured⟩ := listing.measured n hn
    exact Neighbor.toldBy_kept finite (places n.entry held) measured

/-- A client that is farther away than squares reach. -/
def remote : Roster := [⟨.number 1, ⟨1e200, 0⟩, []⟩]

theorem check_remote : Roster.check remote = .ok () :=
  FleetMatch.Text.Utf8.toOption_eq_some_iff.1 (by decide +kernel)

/-- The distance of this client is among those that the law tells of. -/
theorem remote_told : ∃ ix found v entries,
    Index.buildBy? Halving.sorting ⟨.euclidean, .ofNat 16⟩ remote = .ok ix ∧
      (PositionUpdate.request ⟨0, 0, .number 1⟩ 1).check = .ok () ∧
      ix.nearestBy Agenda.heap ⟨0, 0⟩ 1 = some found ∧ found.length = 1 ∧
      Json.parse (ofNeighbors ⟨0, 0, .number 1⟩ 0 "TIME" found).line.toList = .ok v ∧
      v.member? "matches" = some (.array entries) ∧ List.Forall₂ (Neighbor.ToldBy ⟨0, 0⟩) found entries := by
  have built := Index.buildBy?_of_check Halving.sorting ⟨.euclidean, .ofNat 16⟩ check_remote
  have fit : (PositionUpdate.request ⟨0, 0, .number 1⟩ 1).check = .ok () := rfl
  obtain ⟨found, v, entries, answer, length, read, held, told⟩ :=
    distances_told built fit Agenda.heap 0 "TIME"
  exact ⟨_, found, v, entries, built, fit, answer, length, read, held, told⟩

/-- An update from the origin. -/
def originUpdate : List Char := "\x7b\"lon\":0,\"lat\":0,\"taxiId\":1\x7d".toList

/-- The line that answers it. -/
def remoteLine : String :=
  "\x7b\"taxiId\":1,\"snapshot\":0,\"matchedAt\":\"TIME\",\"matches\":[" ++
    "\x7b\"id\":1,\"lon\":1e+200,\"lat\":0.0,\"distance\":null\x7d]\x7d"

/-- **A distance that is lost**: that of a client who is `1e200` away, which is itself a number that can be
written. -/
theorem distance_lost : ∃ u ix found, PositionUpdate.parse originUpdate = .ok u ∧
    Index.build? ⟨.euclidean, .ofNat 16⟩ remote = .ok ix ∧ (u.request 1).check = .ok () ∧
    ix.nearest u.place 1 = some found ∧ (found.map fun n => n.distance.isFinite) = [false] ∧
    (ofNeighbors u 0 "TIME" found).line = remoteLine := by
  have told : ((PositionUpdate.parse originUpdate).toOption.bind fun u =>
      (Index.build? ⟨.euclidean, .ofNat 16⟩ remote).toOption.bind fun ix =>
        (ix.nearest u.place 1).map fun found =>
          ((u.request 1).check.toOption, found.map fun n => n.distance.isFinite,
            (ofNeighbors u 0 "TIME" found).line)) = some (some (), [false], remoteLine) := by
    decide +kernel
  obtain ⟨u, read, told⟩ := Option.bind_eq_some_iff.1 told
  obtain ⟨ix, built, told⟩ := Option.bind_eq_some_iff.1 told
  obtain ⟨found, answer, told⟩ := Option.map_eq_some_iff.1 told
  obtain ⟨fit, infinite, line⟩ : _ ∧ _ ∧ _ := by simpa only [Prod.mk.injEq] using told
  rw [FleetMatch.Text.Utf8.toOption_eq_some_iff] at read built fit
  exact ⟨u, ix, found, read, built, fit, answer, infinite, line⟩

end MatchRecord

end FleetMatch
