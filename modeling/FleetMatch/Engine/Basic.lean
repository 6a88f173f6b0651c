import FleetMatch.Engine.Event
import FleetMatch.Index.Describe
import FleetMatch.Index.Search

/-!
# The engine

An engine holds one current index with its version and counts what it does.

* `Engine.query`, `Engine.batch`: answers requests from the current index; requests that are refused
  are counted apart.
* `Engine.swap`: makes another index the current one under the next version.
* `Effect`: what an operation leaves behind, which is its answer, the engine and the events.

All counters and versions have 64 bits and wrap.
-/

namespace FleetMatch

/-- What an engine has counted. -/
structure Counters where
  queries : UInt64 := 0
  rejected : UInt64 := 0
  swaps : UInt64 := 0
  emptySwaps : UInt64 := 0
  deriving DecidableEq, Repr

namespace Counters

/-- Counts answered requests. -/
def addQueries (c : Counters) (n : Nat) : Counters :=
  { c with queries := c.queries + UInt64.ofNat n }

/-- Counts refused requests. -/
def addRejected (c : Counters) (n : Nat) : Counters :=
  { c with rejected := c.rejected + UInt64.ofNat n }

/-- Counts a swap. -/
def addSwap (c : Counters) (isEmpty : Bool) : Counters :=
  { c with
    swaps := c.swaps + 1
    emptySwaps := if isEmpty then c.emptySwaps + 1 else c.emptySwaps }

end Counters

/-- An index with the version under which it is the current one. -/
structure Snapshot where
  version : UInt64
  index : Index

/-- An index without clients is worth a remark; it answers every request with nothing. -/
def Snapshot.status (s : Snapshot) : Status := if s.index.isEmpty then .emptyIndex else .success

/-- The current index and the counters. -/
structure Engine where
  current : Snapshot
  counters : Counters

/-- What an operation leaves behind. -/
structure Effect (α : Type) where
  answer : α
  engine : Engine
  events : List Event

/-- The counters together with the state of the current index. -/
structure Stats where
  counters : Counters
  version : UInt64
  clients : Nat

/-- The neighbours of a request, or why it is refused.  Neighbours are undefined where the search
is. -/
abbrev Reply := Except QueryError (Option (List Neighbor))

/-- Neighbours have been found, if only none. -/
def Reply.isAnswer : Reply → Bool
  | .ok (some _) => true
  | _ => false

/-- The request was refused. -/
def Reply.isRefusal : Reply → Bool
  | .error _ => true
  | _ => false

/-- The reply to a request from an index. -/
def Request.replyFrom (r : Request) (ix : Index) : Reply :=
  match r.check with
  | .error e => .error e
  | .ok () => .ok (ix.nearest r.place r.k)

/-- What was replaced, and the version of what replaced it. -/
structure Swap where
  version : UInt64
  previous : Index

namespace Engine

/-- An engine that starts with an index, as version zero. -/
def start (ix : Index) : Engine := ⟨⟨0, ix⟩, {}⟩

/-- The current index. -/
def index (e : Engine) : Index := e.current.index

/-- The current version. -/
def version (e : Engine) : UInt64 := e.current.version

/-- The counters together with the state of the current index. -/
def stats (e : Engine) : Stats := ⟨e.counters, e.version, e.index.size⟩

/-- The events of a reply. -/
def replyEvents (e : Engine) (r : Request) : Reply → List Event
  | .error err => [.refused r.requester err]
  | .ok (some found) => [.answered r.requester r.k found.length e.version]
  | .ok none => []

/-- The counters after replies. -/
def count (c : Counters) (replies : List Reply) : Counters :=
  (c.addQueries (replies.countP Reply.isAnswer)).addRejected (replies.countP Reply.isRefusal)

/-- Replies to a request. -/
def query (e : Engine) (r : Request) : Effect Reply :=
  let reply := r.replyFrom e.index
  ⟨reply, { e with counters := count e.counters [reply] }, e.replyEvents r reply⟩

/-- Replies to a request, with the version that the reply comes from. -/
def queryVersioned (e : Engine) (r : Request) : Effect (UInt64 × Reply) :=
  let done := e.query r
  ⟨(e.version, done.answer), done.engine, done.events⟩

/-- Replies to requests from one and the same index.  Only refusals are told to the log.

An engine that runs ends a batch at the first search that is undefined: it replies to none of the requests
and counts no answers, only the refusals before that search.  Here this one reply is undefined and the
others stand.  Batches whose searches are all defined, as they are for both built-in metrics, do not show
the difference. -/
def batch (e : Engine) (rs : List Request) : Effect (List Reply) :=
  let replies := rs.map fun r => r.replyFrom e.index
  let refusals := rs.filterMap fun r =>
    match r.check with
    | .error err => some (.refused r.requester err)
    | .ok () => none
  ⟨replies, { e with counters := count e.counters replies }, refusals⟩

/-- Makes an index the current one under the next version. -/
def swap (e : Engine) (ix : Index) : Effect Swap :=
  let version := e.version + 1
  let event : Event :=
    if ix.isEmpty then .swappedEmpty version else .swapped version ix.size e.index.size
  ⟨⟨version, e.index⟩, ⟨⟨version, ix⟩, e.counters.addSwap ix.isEmpty⟩, [event]⟩

/-- An engine with its version and index. -/
def describe (e : Engine) : String :=
  "MatchEngine \x7b version: " ++ Event.versionText e.version ++ ", index: " ++ e.index.describe ++
    " \x7d"

end Engine

end FleetMatch
