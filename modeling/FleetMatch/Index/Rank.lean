import FleetMatch.Index.Build
import FleetMatch.Scalar.Order

/-!
# Ranking neighbours

A neighbour is an entry with its distance from the place of a query.  Neighbours are ranked by
distance, where equal distances are ranked by ordinals.

* `Neighbor.ranksBefore`: the order of ranking, total on all binary64 distances.
* `Roster.ranked`: all neighbours in rank order, found by measuring everything.
* `Shortlist.offer`: keeps the best of the neighbours offered so far, as many as there is room for.
-/

namespace FleetMatch

/-- An entry with its distance from a place. -/
structure Neighbor where
  distance : Float
  entry : Entry

namespace Neighbor

/-- The client that was found. -/
def client (n : Neighbor) : Client := n.entry.client

/-- The first neighbour ranks strictly before the second. -/
def ranksBefore (a b : Neighbor) : Bool :=
  Scalar.rankLT a.distance b.distance ||
    (!Scalar.rankLT b.distance a.distance && a.entry.ordinal < b.entry.ordinal)

/-- The first neighbour ranks at or before the second. -/
def ranksUpTo (a b : Neighbor) : Bool := !ranksBefore b a

/-- An entry as a neighbour of a place. -/
def measure (metric : Metric) (q : Place) (e : Entry) : Neighbor := ⟨metric.distance q e.place, e⟩

/-- Neighbours in rank order. -/
def inRankOrder (ns : List Neighbor) : List Neighbor := ns.mergeSort ranksUpTo

end Neighbor

namespace Roster

variable (metric : Metric) (q : Place) (roster : Roster)

/-- The clients of a roster as neighbours of a place. -/
def neighbors : List Neighbor := roster.entries.map (Neighbor.measure metric q)

/-- All neighbours of a place in rank order. -/
def ranked : List Neighbor := Neighbor.inRankOrder (roster.neighbors metric q)

end Roster

/-- The best neighbours found so far. -/
structure Shortlist where
  /-- How many more neighbours there is room for. -/
  room : Nat
  /-- The neighbours, the worst first. -/
  worstFirst : List Neighbor

namespace Shortlist

/-- Nothing found yet, with room for `k` neighbours. -/
def empty (k : Nat) : Shortlist := ⟨k, []⟩

/-- The neighbours in rank order. -/
def toList (best : Shortlist) : List Neighbor := best.worstFirst.reverse

/-- Puts a neighbour into its place among neighbours that stand the worst first. -/
def insert (n : Neighbor) : List Neighbor → List Neighbor
  | [] => [n]
  | m :: rest => if m.ranksBefore n then n :: m :: rest else m :: insert n rest

/-- Takes a neighbour in.  Where there is no room for one more, the worst goes. -/
def offer (best : Shortlist) (n : Neighbor) : Shortlist :=
  match best.room with
  | 0 => ⟨0, (insert n best.worstFirst).drop 1⟩
  | room + 1 => ⟨room, insert n best.worstFirst⟩

/-- There is no room left, and all neighbours are nearer than the bound. -/
def excludes (best : Shortlist) (bound : Float) : Bool :=
  best.room == 0 &&
    match best.worstFirst with
    | worst :: _ => Scalar.rankLT worst.distance bound
    | [] => false

theorem length_insert (n : Neighbor) (ns : List Neighbor) :
    (insert n ns).length = ns.length + 1 := by
  induction ns with
  | nil => rfl
  | cons m rest ih =>
    unfold insert
    split
    · rfl
    · simp [ih]

end Shortlist

end FleetMatch
