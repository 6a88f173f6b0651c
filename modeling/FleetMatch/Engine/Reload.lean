import FleetMatch.Engine.Basic
import FleetMatch.Roster.Rows

/-!
# Reloading

A reload takes a roster from a source, builds an index of it and makes the index the current one.
If any of this fails the engine keeps what it has.

* `Source`: where rosters come from.  A source may use the engine itself while it loads.
* `Engine.settle`: what becomes of what a source has given, on the engine that it has left behind.
* `Engine.reload`: one reload.  A source that crashes takes the reload down with it.
* `Engine.reloadApart`: one reload in a task of its own, where a crash of the source is a failure of
  the task.
-/

namespace FleetMatch

/-- What a source gives. -/
inductive Loading where
  | loaded (roster : Roster)
  | failed (error : LoadError)
  | crashed (reason : String)

/-- Where rosters come from. -/
structure Source where
  /-- What logs call the source. -/
  description : String
  load : Engine → Effect Loading

/-- Why a reload failed. -/
inductive ReloadError where
  | load (error : LoadError)
  | build (error : RosterError)
  | task (reason : String)

namespace ReloadError

/-- The error in words. -/
def message : ReloadError → String
  | .load e => "Reload failed: " ++ e.message
  | .build e => "Reload failed: " ++ e.message
  | .task reason => "Reload task failed: " ++ reason

/-- The status of the error.  A refused roster counts as an index that could not be built. -/
def status : ReloadError → Status
  | .load e => e.status
  | .build _ => .indexBuildFailed
  | .task _ => .internal

/-- The error with all its fields, if they are fields of this library. -/
def detail : ReloadError → Option String
  | .load e => e.detail.map fun text => "Load(" ++ text ++ ")"
  | .build e => some ("Build(" ++ e.detail ++ ")")
  | .task reason => some ("Task(" ++ Text.quoted reason ++ ")")

/-- What is told about the error. -/
def failure (e : ReloadError) : Failure where
  kind := "ReloadError"
  message := e.message
  status := e.status
  detail := e.detail
  marks :=
    match e with
    | .build cause => [("cause", cause.status.display)]
    | _ => []
  cause :=
    match e with
    | .load cause => some cause.message
    | .build cause => some cause.message
    | .task _ => none

end ReloadError

/-- How a reload ended. -/
inductive ReloadOutcome where
  /-- The index of the new roster is the current one under this version. -/
  | published (version : UInt64)
  | failed (error : ReloadError)
  | crashed (reason : String)

namespace Source

/-- A source that gives the same every time and leaves the engine alone. -/
def constant (description : String) (given : Loading) (events : List Event) : Source :=
  ⟨description, fun e => ⟨given, e, events⟩⟩

/-- A source that reads rows from a file.  `contents` holds the bytes of the file or what keeps it
from being read. -/
def file (format : RowFormat) (path : String)
    (contents : Except (ReadFault × String) (List UInt8)) : Source :=
  match contents with
  | .error (fault, reason) => constant path (.failed (.unreadable path fault reason)) []
  | .ok bytes =>
    match format.read path bytes with
    | .error e => constant path (.failed e) []
    | .ok roster => constant path (.loaded roster) [.loaded path roster.length]

end Source

namespace Engine

/-- Makes the index of a roster the current one, unless the roster is refused. -/
def publish (e : Engine) (source : String) (config : IndexConfig) (roster : Roster) :
    Effect ReloadOutcome :=
  match Index.build? config roster with
  | .error err => ⟨.failed (.build err), e, [.buildFailed source err e.version]⟩
  | .ok ix =>
    let swapped := e.swap ix
    ⟨.published swapped.answer.version, swapped.engine, .ofBuild ix :: swapped.events⟩

/-- What becomes of what a source has given. -/
def settle (e : Engine) (source : String) (config : IndexConfig) : Loading → Effect ReloadOutcome
  | .crashed reason => ⟨.crashed reason, e, []⟩
  | .failed err => ⟨.failed (.load err), e, [.loadFailed source err e.version]⟩
  | .loaded roster => e.publish source config roster

/-- One reload. -/
def reload (e : Engine) (source : Source) (config : IndexConfig) : Effect ReloadOutcome :=
  let loading := source.load e
  let done := loading.engine.settle source.description config loading.answer
  ⟨done.answer, done.engine, .reloading source.description :: loading.events ++ done.events⟩

/-- One reload in a task of its own. -/
def reloadApart (e : Engine) (source : Source) (config : IndexConfig) : Effect ReloadOutcome :=
  let done := e.reload source config
  match done.answer with
  | .crashed reason => ⟨.failed (.task reason), done.engine, done.events⟩
  | _ => done

end Engine

end FleetMatch
