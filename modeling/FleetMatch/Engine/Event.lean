import FleetMatch.Engine.Request
import FleetMatch.Index.Build
import FleetMatch.LoadError

/-!
# Events

What the library tells its log.  An event is what happened; `Event.severity`, `Event.message` and
`Event.fields` are the form in which it is written.
-/

namespace FleetMatch

/-- What happened. -/
inductive Event where
  /-- An index without clients was built. -/
  | builtEmpty (metric : String)
  /-- An index was built. -/
  | built (clients : Nat) (capacity : Nat) (metric : String) (depth : Nat)
  /-- A request was answered. -/
  | answered (requester : ClientId) (k found : Nat) (version : UInt64)
  /-- A request was refused. -/
  | refused (requester : ClientId) (error : QueryError)
  /-- An index without clients became the current one. -/
  | swappedEmpty (version : UInt64)
  /-- An index became the current one. -/
  | swapped (version : UInt64) (clients previous : Nat)
  /-- A roster was read from a file. -/
  | loaded (path : String) (clients : Nat)
  /-- A reload began. -/
  | reloading (source : String)
  /-- A reload got no roster. -/
  | loadFailed (source : String) (error : LoadError) (version : UInt64)
  /-- A reload got a roster that is refused. -/
  | buildFailed (source : String) (error : RosterError) (version : UInt64)
  /-- Reloading in the background began. -/
  | taskStarted (interval : Nat)
  /-- Reloading in the background ended. -/
  | taskStopped (version : UInt64)
  /-- A line is no update. -/
  | skippedLine (error : LoadError)
  /-- An update asks for what the engine refuses. -/
  | skippedUpdate (taxi : ClientId) (error : QueryError)

namespace Event

/-- The event of building an index. -/
def ofBuild (ix : Index) : Event :=
  if ix.isEmpty then .builtEmpty ix.metric.name
  else .built ix.size ix.capacity.entries ix.metric.name ix.shape.depth

/-- How important an event is. -/
def severity : Event → Severity
  | .builtEmpty .. | .built .. | .loaded .. | .reloading .. => .debug
  | .answered .. | .refused .. => .trace
  | .swappedEmpty .. | .loadFailed .. | .buildFailed .. | .skippedLine .. | .skippedUpdate .. => .warn
  | .swapped .. | .taskStarted .. | .taskStopped .. => .info

/-- The words of an event. -/
def message : Event → String
  | .builtEmpty .. => "built empty spatial index"
  | .built .. => "built spatial index"
  | .answered .. => "query answered"
  | .refused .. => "query rejected"
  | .swappedEmpty .. => "swapped in empty index, no matches will be produced"
  | .swapped .. => "swapped spatial index"
  | .loaded .. => "loaded point set"
  | .reloading .. => "reloading point set"
  | .loadFailed .. => "failed to load point set, keeping current index"
  | .buildFailed .. => "failed to build index, keeping current index"
  | .taskStarted .. => "reload task started"
  | .taskStopped .. => "reload task stopped"
  | .skippedLine .. => "skipping malformed update"
  | .skippedUpdate .. => "skipping invalid update"

/-- A version as text. -/
def versionText (version : UInt64) : String := Numeral.ofNat version.toNat

/-- The fields of an event, by name. -/
def fields : Event → List (String × String)
  | .builtEmpty metric => [("metric", metric)]
  | .built clients capacity metric depth =>
    [("points", Numeral.ofNat clients), ("leaf_capacity", Numeral.ofNat capacity),
      ("metric", metric), ("depth", Numeral.ofNat depth)]
  | .answered requester k found version =>
    [("requester", requester.display), ("k", Numeral.ofNat k), ("found", Numeral.ofNat found),
      ("version", versionText version)]
  | .refused requester error => [("requester", requester.display), ("error", error.message)]
  | .swappedEmpty version =>
    [("version", versionText version), ("code", Status.emptyIndex.display)]
  | .swapped version clients previous =>
    [("version", versionText version), ("points", Numeral.ofNat clients),
      ("previous_points", Numeral.ofNat previous)]
  | .loaded path clients => [("path", path), ("points", Numeral.ofNat clients)]
  | .reloading source => [("source", source)]
  | .loadFailed source error version =>
    [("source", source), ("error", error.message), ("code", error.status.display),
      ("retryable", if error.status.isRetryable then "true" else "false"),
      ("version", versionText version)]
  | .buildFailed source error version =>
    [("source", source), ("error", error.message), ("code", error.status.display),
      ("version", versionText version)]
  | .taskStarted interval => [("interval_ms", Numeral.ofNat interval)]
  | .taskStopped version => [("version", versionText version)]
  | .skippedLine error => [("error", error.message), ("code", error.status.display)]
  | .skippedUpdate taxi error =>
    [("taxi", taxi.display), ("error", error.message), ("code", Status.invalidQuery.display)]

/-- An event as a line of a log. -/
def line (e : Event) : String :=
  e.fields.foldl (fun text field => text ++ " " ++ field.1 ++ "=" ++ field.2)
    (e.severity.name ++ " " ++ e.message)

end Event

end FleetMatch
