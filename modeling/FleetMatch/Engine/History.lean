import FleetMatch.Engine.Basic

/-!
# Histories of an engine

A history is what callers have asked of an engine and what they were given, in the order in which it
happened.

* `Call`, `Answer`: what may be asked of an engine and what is given.
* `Engine.perform`, `Engine.performAll`: one call, and calls one after another.
* `Course.run`: the history of some calls, with the engine that it leads to.
* `History.lineage`: the indexes that have been current so far, from the first one on.
-/

set_option autoImplicit false

namespace FleetMatch

/-- What may be asked of an engine. -/
inductive Call where
  | query (r : Request)
  | queryVersioned (r : Request)
  | batch (rs : List Request)
  | swap (ix : Index)
  | swapVersioned (ix : Index)
  | snapshot
  | current
  | stats

/-- The requests of a call. -/
def Call.requests : Call → List Request
  | .query r | .queryVersioned r => [r]
  | .batch rs => rs
  | _ => []

/-- The index that a call makes the current one. -/
def Call.swapped? : Call → Option Index
  | .swap ix | .swapVersioned ix => some ix
  | _ => none

/-- What is given to a caller. -/
inductive Answer where
  | reply (reply : Reply)
  /-- The neighbours come with the version they were found under; a refusal has none. -/
  | versioned (reply : Except QueryError (UInt64 × Option (List Neighbor)))
  | replies (replies : List Reply)
  | previous (ix : Index)
  | swapped (swap : Swap)
  | index (ix : Index)
  | current (snapshot : Snapshot)
  | stats (stats : Stats)

namespace Answer

/-- The replies to requests. -/
def toReplies : Answer → List Reply
  | .reply r => [r]
  | .versioned r => [r.map Prod.snd]
  | .replies rs => rs
  | _ => []

/-- The index that a swap has replaced, with the version that the swap has told. -/
def replaced? : Answer → Option (Option UInt64 × Index)
  | .previous ix => some (none, ix)
  | .swapped s => some (some s.version, s.previous)
  | _ => none

/-- The version that the answer tells. -/
def version? : Answer → Option UInt64
  | .versioned (.ok (version, _)) => some version
  | .swapped s => some s.version
  | .current s => some s.version
  | .stats s => some s.version
  | _ => none

end Answer

/-- One call: what is given to the caller, and the engine it leaves behind. -/
def Engine.perform (e : Engine) : Call → Answer × Engine
  | .query r =>
    let done := e.query r
    (.reply done.answer, done.engine)
  | .queryVersioned r =>
    let done := e.queryVersioned r
    (.versioned (done.answer.2.map fun found => (done.answer.1, found)), done.engine)
  | .batch rs =>
    let done := e.batch rs
    (.replies done.answer, done.engine)
  | .swap ix =>
    let done := e.swap ix
    (.previous done.answer.previous, done.engine)
  | .swapVersioned ix =>
    let done := e.swap ix
    (.swapped done.answer, done.engine)
  | .snapshot => (.index e.index, e)
  | .current => (.current e.current, e)
  | .stats => (.stats e.stats, e)

/-- The engine that some calls leave behind, one after another. -/
def Engine.performAll (e : Engine) (calls : List Call) : Engine :=
  calls.foldl (fun e call => (e.perform call).2) e

/-- Calls with their answers, the earliest first. -/
abbrev History := List (Call × Answer)

namespace History

variable (h : History)

/-- The requests of all calls. -/
def requests : List Request := h.flatMap fun entry => entry.1.requests

/-- The replies to all requests. -/
def replies : List Reply := h.flatMap fun entry => entry.2.toReplies

/-- The indexes that were swapped in. -/
def swapped : List Index := h.filterMap fun entry => entry.1.swapped?

/-- What the swaps have replaced, with the versions they have told. -/
def replaced : List (Option UInt64 × Index) := h.filterMap fun entry => entry.2.replaced?

/-- The versions that were told. -/
def versions : List UInt64 := h.filterMap fun entry => entry.2.version?

/-- The index of the start, followed by those that were swapped in. -/
def lineage (start : Index) : List Index := start :: h.swapped

end History

/-- A history with the engine that it leads to. -/
structure Course where
  history : History
  engine : Engine

namespace Course

/-- One more call. -/
def extend (course : Course) (call : Call) : Course :=
  let (answer, engine) := course.engine.perform call
  ⟨course.history ++ [(call, answer)], engine⟩

/-- The history of some calls to an engine that starts with an index. -/
def run (start : Index) (calls : List Call) : Course :=
  calls.foldl extend ⟨[], Engine.start start⟩

end Course

end FleetMatch
