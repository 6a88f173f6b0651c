import FleetMatch.Index.Heap
import FleetMatch.Index.Rank

/-!
# Searching an index

* `Index.nearestBy`, `Index.nearest`: the `k` nearest clients.  Trees are visited by ascending
  bounds; the search ends when no tree that is left can hold a client of the shortlist.  A tree whose
  bound equals the worst distance of the shortlist is still visited: it may hold a client at that
  distance with a smaller ordinal.
* `Agenda`: what the search asks of the trees to visit.  `Agenda.heap` keeps them in a heap.
* `Index.within`: the clients up to a distance.
* `Index.range`: the clients in a box, in the order of the input.

The first two are undefined (`none`) where the metric has no bound for the box of a tree.
-/

namespace FleetMatch

/-- A tree to visit, with its bound. -/
structure Visit where
  bound : Float
  tree : Tree

/-- The first visit has the smaller bound. -/
def Visit.before (a b : Visit) : Bool := Scalar.rankLT a.bound b.bound

theorem Visit.before_eq_false_iff {a b : Visit} :
    Visit.before a b = false ↔ Scalar.rankLE b.bound a.bound = true := by
  simp [Visit.before, Scalar.rankLT]

theorem Visit.precedence : Heap.Precedence Visit.before where
  asymm h := before_eq_false_iff.2 (Scalar.rankLE_of_rankLT h)
  trans hba hcb := before_eq_false_iff.2
    (Scalar.rankLE_trans (before_eq_false_iff.1 hba) (before_eq_false_iff.1 hcb))

/-- Any way to keep trees to visit that hands out one with a smallest bound next.  Nothing is said
about which of several. -/
structure Agenda where
  State : Type
  /-- Nothing to visit. -/
  empty : State
  /-- Takes a visit in. -/
  insert : Visit → State → State
  /-- Takes out the next visit. -/
  pop? : State → Option (Visit × State)
  /-- All visits to make. -/
  toList : State → List Visit
  toList_empty : toList empty = []
  toList_insert : ∀ v s, (toList (insert v s)).Perm (v :: toList s)
  eq_nil_of_pop? : ∀ {s}, pop? s = none → toList s = []
  toList_pop? : ∀ {s v rest}, pop? s = some (v, rest) → (toList s).Perm (v :: toList rest)
  /-- The next visit has a smallest bound. -/
  least : ∀ {s v rest}, pop? s = some (v, rest) →
    ∀ w ∈ toList rest, Scalar.rankLE v.bound w.bound = true

/-- The number of trees that some visits lead to. -/
def Visit.total : List Visit → Nat
  | [] => 0
  | v :: rest => v.tree.size + total rest

theorem Visit.total_perm {vs ws : List Visit} (same : vs.Perm ws) : total vs = total ws := by
  induction same with
  | nil => rfl
  | cons v _ ih => simp only [total, ih]
  | swap v w rest =>
    simp only [total]
    omega
  | trans _ _ ih₁ ih₂ => exact ih₁.trans ih₂

namespace Agenda

variable (agenda : Agenda)

/-- The number of trees under those to visit. -/
def size (s : agenda.State) : Nat := Visit.total (agenda.toList s)

theorem size_insert (v : Visit) (s : agenda.State) :
    agenda.size (agenda.insert v s) = v.tree.size + agenda.size s :=
  Visit.total_perm (agenda.toList_insert v s)

theorem size_pop? {v : Visit} {s rest : agenda.State} (h : agenda.pop? s = some (v, rest)) :
    agenda.size s = v.tree.size + agenda.size rest :=
  Visit.total_perm (agenda.toList_pop? h)

end Agenda

/-- Visits in a heap. -/
structure Frontier where
  count : Nat
  visits : Heap Visit
  ordered : visits.Ordered Visit.before

namespace Frontier

/-- Nothing to visit. -/
def empty : Frontier := ⟨0, .empty, trivial⟩

/-- Takes a visit in. -/
def insert (v : Visit) (f : Frontier) : Frontier :=
  ⟨f.count + 1, f.visits.insertAt Visit.before v (Heap.way (f.count + 1)),
    Heap.ordered_insertAt Visit.precedence v f.ordered _⟩

/-- Takes out the next visit. -/
def pop? (f : Frontier) : Option (Visit × Frontier) :=
  match h : f.visits.pop? Visit.before f.count with
  | none => none
  | some (v, rest) => some (v, ⟨f.count - 1, rest, Heap.ordered_pop? Visit.precedence f.ordered h⟩)

theorem visits_of_pop? {f g : Frontier} {v : Visit} (h : f.pop? = some (v, g)) :
    f.visits.pop? Visit.before f.count = some (v, g.visits) := by
  simp only [pop?] at h
  split at h
  · cases h
  · rename_i hp; cases h; exact hp

end Frontier

/-- Visits are kept in a heap. -/
def Agenda.heap : Agenda where
  State := Frontier
  empty := Frontier.empty
  insert := Frontier.insert
  pop? := Frontier.pop?
  toList f := f.visits.toList
  toList_empty := rfl
  toList_insert v f := Heap.toList_insertAt Visit.before v _ f.visits
  eq_nil_of_pop? {f} h := by
    simp only [Frontier.pop?] at h
    split at h
    · rename_i hp
      rw [Heap.pop?_eq_none _ hp]; rfl
    · cases h
  toList_pop? h := Heap.toList_pop? _ (Frontier.visits_of_pop? h)
  least {f _ _} h w hw :=
    Visit.before_eq_false_iff.1 (Heap.pop?_least f.ordered (Frontier.visits_of_pop? h) w hw)

namespace Search

section

variable (agenda : Agenda) (metric : Metric) (q : Place)

/-- Adds a tree to those to visit, unless the shortlist excludes it. -/
def propose (best : Shortlist) (t : Tree) (pending : agenda.State) : Option agenda.State :=
  (metric.bound? q t.box).map fun bound =>
    if best.excludes bound then pending else agenda.insert ⟨bound, t⟩ pending

/-- Visits a tree: the entries of a leaf are offered to the shortlist, the halves of a larger tree
are put with those to visit. -/
def visit (best : Shortlist) (pending : agenda.State) : Tree → Option (agenda.State × Shortlist)
  | .leaf entries _ =>
    some (pending, entries.foldl (fun best e => best.offer (Neighbor.measure metric q e)) best)
  | .node left right _ => do
    let withLeft ← propose agenda metric q best left pending
    let withBoth ← propose agenda metric q best right withLeft
    return (withBoth, best)

variable {agenda metric q}

theorem size_propose {best : Shortlist} {t : Tree} {pending next : agenda.State}
    (h : propose agenda metric q best t pending = some next) :
    agenda.size next ≤ t.size + agenda.size pending := by
  obtain ⟨bound, -, rfl⟩ := Option.map_eq_some_iff.1 h
  split
  · omega
  · exact Nat.le_of_eq (agenda.size_insert _ _)

theorem size_visit {best best' : Shortlist} {t : Tree} {pending next : agenda.State}
    (h : visit agenda metric q best pending t = some (next, best')) :
    agenda.size next < t.size + agenda.size pending := by
  cases t with
  | leaf entries box => cases h; simp [Tree.size]
  | node left right box =>
    obtain ⟨withLeft, hl, h⟩ := Option.bind_eq_some_iff.1 h
    obtain ⟨withBoth, hr, h⟩ := Option.bind_eq_some_iff.1 h
    cases h
    have growsLeft := size_propose hl
    have growsRight := size_propose hr
    simp only [Tree.size]
    omega

variable (agenda metric q)

set_option linter.unusedVariables false in
/-- Visits trees, the nearest first, until the shortlist excludes all that are left. -/
def run (pending : agenda.State) (best : Shortlist) : Option Shortlist :=
  match hp : agenda.pop? pending with
  | none => some best
  | some (v, rest) =>
    if best.excludes v.bound then some best
    else
      match hv : visit agenda metric q best rest v.tree with
      | none => none
      | some (next, best') => run next best'
termination_by agenda.size pending
decreasing_by
  rw [agenda.size_pop? hp]
  exact size_visit hv

end

/-- The entries of a tree up to a distance. -/
def collect (metric : Metric) (q : Place) (radius : Float) : Tree → Option (List Neighbor)
  | .leaf entries box =>
    (metric.bound? q box).map fun bound =>
      if radius < bound then []
      else
        (entries.map (Neighbor.measure metric q)).filter fun n => decide (n.distance ≤ radius)
  | .node left right box =>
    match metric.bound? q box with
    | none => none
    | some bound =>
      if radius < bound then some []
      else
        match collect metric q radius left, collect metric q radius right with
        | some inLeft, some inRight => some (inLeft ++ inRight)
        | _, _ => none

/-- The entries of a tree in a box. -/
def inside (region : Region) : Tree → List Entry
  | .leaf entries box =>
    if box.intersects region then entries.filter fun e => region.contains e.place else []
  | .node left right box =>
    if box.intersects region then inside region left ++ inside region right else []

end Search

namespace Index

/-- The `k` nearest clients in rank order, or all of them if there are fewer. -/
def nearestBy (agenda : Agenda) (ix : Index) (q : Place) (k : Nat) : Option (List Neighbor) :=
  match ix.tree? with
  | none => some []
  | some tree =>
    if k = 0 then some []
    else
      match ix.metric.bound? q tree.box with
      | none => none
      | some bound =>
        (Search.run agenda ix.metric q (agenda.insert ⟨bound, tree⟩ agenda.empty)
          (.empty (min k ix.size))).map Shortlist.toList

/-- The `k` nearest clients, with the trees to visit in a heap. -/
def nearest (ix : Index) (q : Place) (k : Nat) : Option (List Neighbor) :=
  ix.nearestBy Agenda.heap q k

/-- The clients up to a distance in rank order.  A radius below zero, or none at all, finds
nothing. -/
def within (ix : Index) (q : Place) (radius : Float) : Option (List Neighbor) :=
  match ix.tree? with
  | none => some []
  | some tree =>
    if radius.isNaN || radius < 0.0 then some []
    else (Search.collect ix.metric q radius tree).map Neighbor.inRankOrder

/-- The clients in a box, in the order of the input. -/
def range (ix : Index) (region : Region) : List Client :=
  match ix.tree? with
  | none => []
  | some tree => (Tree.ascending (Search.inside region tree)).map Entry.client

end Index

end FleetMatch
