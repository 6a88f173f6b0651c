import FleetMatch.Engine.Background
import FleetMatch.Engine.History

/-!
# A background task among others

A background task is not alone with its engine: callers use the engine at any time, also in the middle
of a reload, and the task shares its switch with those who hold it.  Nothing is known about who acts
next.  Times are counted in nanoseconds from the moment at which the task was spawned.

* `Stage`: the engine, the clock, the switch and how far the task has come.
* `Action`: what the clock, the callers, the holders of the switch and the task itself may do.
* `Step`: when an action may happen and what it does.
* `Run`: actions one after another.
* `Ledger`: what becomes current in a run, told from the actions alone.

A reload comes in three actions, since others may act between them: it begins, the source is done with
loading, and the task makes of it what it can.  A source that uses the engine is one of the callers.
-/

set_option autoImplicit false

namespace FleetMatch

/-- What a background task is asked for. -/
structure Plan where
  /-- The time between two reloads. -/
  interval : Nat
  config : IndexConfig

/-- A millisecond, in nanoseconds. -/
def millisecond : Nat := 1000000

/-- The time between two reloads, at least one millisecond. -/
def Plan.period (plan : Plan) : Nat := max plan.interval millisecond

/-- A switch that the task watches. -/
structure Switch where
  /-- What the switch was last turned to. -/
  on : Bool := false
  /-- The switch was turned after the task last noticed it. -/
  unseen : Bool := false
  /-- Nobody holds the switch any more. -/
  closed : Bool := false
  deriving DecidableEq, Repr

/-- How far the task has come. -/
inductive Phase where
  /-- The task has not come to its first line yet. -/
  | spawned
  /-- The task waits until a reload is due or the switch has been used. -/
  | waiting
  /-- The task has noticed that the switch was turned. -/
  | woken
  /-- A source is loading. -/
  | loading (source : String)
  /-- A source is done with loading. -/
  | loaded (source : String) (given : Loading)
  /-- The task has ended. -/
  | stopped

/-- A background task with all that it shares with others. -/
structure Stage where
  engine : Engine
  now : Nat
  /-- The time from which on a reload is due. -/
  due : Nat
  phase : Phase
  switch : Switch
  /-- What the task has told its log, the latest first. -/
  events : List Event

/-- The moment at which a task is spawned. -/
def Stage.spawn (e : Engine) (switch : Switch) : Stage := ⟨e, 0, 0, .spawned, switch, []⟩

/-- What may happen. -/
inductive Action where
  /-- Time passes. -/
  | pass (duration : Nat)
  /-- Somebody calls the engine. -/
  | call (call : Call)
  /-- Somebody turns the switch. -/
  | turn (on : Bool)
  /-- The last holder of the switch gives it up. -/
  | giveUp
  /-- The task starts its timer. -/
  | arm
  /-- The task begins a reload from a source; the next one is due at a given time. -/
  | begin (source : String) (next : Nat)
  /-- The source is done with loading; it has told the log something. -/
  | load (given : Loading) (told : List Event)
  /-- The task makes of it what it can. -/
  | finish
  /-- The task notices that the switch has been used. -/
  | notice
  /-- The task looks what the switch was turned to. -/
  | look

namespace Action

/-- The task itself acts, or its source. -/
def isOfTask : Action → Bool
  | .pass _ | .call _ | .turn _ | .giveUp => false
  | _ => true

/-- What somebody calls the engine for. -/
def call? : Action → Option Call
  | .call c => some c
  | _ => none

/-- The index that a caller makes the current one. -/
def swapped? (a : Action) : Option Index := a.call?.bind Call.swapped?

/-- The time that passes. -/
def duration : Action → Nat
  | .pass duration => duration
  | _ => 0

end Action

/-- The time that passes during some actions. -/
def elapsed : List Action → Nat
  | [] => 0
  | a :: rest => a.duration + elapsed rest

/-- When an action may happen, and what it does. -/
inductive Step (plan : Plan) : Stage → Action → Stage → Prop
  | pass {s : Stage} {duration : Nat} :
      Step plan s (.pass duration) { s with now := s.now + duration }
  | call {s : Stage} {call : Call} :
      Step plan s (.call call) { s with engine := (s.engine.perform call).2 }
  | turn {s : Stage} {on : Bool} (held : s.switch.closed = false) :
      Step plan s (.turn on) { s with switch := { s.switch with on := on, unseen := true } }
  | giveUp {s : Stage} (held : s.switch.closed = false) :
      Step plan s .giveUp { s with switch := { s.switch with closed := true } }
  | arm {s : Stage} (fresh : s.phase = .spawned) :
      Step plan s .arm
        { s with
          phase := .waiting
          due := s.now + plan.period
          events := .taskStarted (plan.period / millisecond) :: s.events }
  /-- A reload may begin late, but not early, and the next one is due a period later at least. -/
  | begin {s : Stage} {source : String} {next : Nat} (idle : s.phase = .waiting)
      (due : s.due ≤ s.now) (later : s.due + plan.period ≤ next) :
      Step plan s (.begin source next)
        { s with phase := .loading source, due := next, events := .reloading source :: s.events }
  | load {s : Stage} {source : String} {given : Loading} {told : List Event}
      (busy : s.phase = .loading source) :
      Step plan s (.load given told)
        { s with phase := .loaded source given, events := told.reverse ++ s.events }
  | finish {s : Stage} {source : String} {given : Loading} (busy : s.phase = .loaded source given) :
      Step plan s .finish
        { s with
          engine := (s.engine.settle source plan.config given).engine
          phase := .waiting
          events := (s.engine.settle source plan.config given).events.reverse ++ s.events }
  | wake {s : Stage} (idle : s.phase = .waiting) (turned : s.switch.unseen = true) :
      Step plan s .notice
        { s with phase := .woken, switch := { s.switch with unseen := false } }
  | leave {s : Stage} (idle : s.phase = .waiting) (untouched : s.switch.unseen = false)
      (closed : s.switch.closed = true) :
      Step plan s .notice
        { s with phase := .stopped, events := .taskStopped s.engine.version :: s.events }
  | stay {s : Stage} (woken : s.phase = .woken) (off : s.switch.on = false) :
      Step plan s .look { s with phase := .waiting }
  | stop {s : Stage} (woken : s.phase = .woken) (on : s.switch.on = true) :
      Step plan s .look
        { s with phase := .stopped, events := .taskStopped s.engine.version :: s.events }

/-- Actions that happen one after another. -/
inductive Run (plan : Plan) (start : Stage) : List Action → Stage → Prop
  | nil : Run plan start [] start
  | snoc {actions : List Action} {s s' : Stage} {a : Action} :
      Run plan start actions s → Step plan s a s' → Run plan start (actions ++ [a]) s'

/-! ## What becomes current -/

/-- The index that is made of what a source has given. -/
def Loading.index? (config : IndexConfig) : Loading → Option Index
  | .loaded roster => (Index.build? config roster).toOption
  | _ => none

/-- What is known of a run from its actions. -/
structure Ledger where
  /-- What the source of the reload that is going on has given. -/
  pending : Option Loading := none
  /-- The indexes that became current, the earliest first. -/
  swapped : List Index := []
  /-- How many of them were made by reloads. -/
  reloads : Nat := 0

namespace Ledger

/-- Enters an action. -/
def enter (config : IndexConfig) (l : Ledger) : Action → Ledger
  | .call c => { l with swapped := l.swapped ++ c.swapped?.toList }
  | .load given _ => { l with pending := some given }
  | .finish =>
    match l.pending.bind (Loading.index? config) with
    | some ix => ⟨none, l.swapped ++ [ix], l.reloads + 1⟩
    | none => { l with pending := none }
  | _ => l

/-- The ledger of some actions. -/
def ofActions (config : IndexConfig) (actions : List Action) : Ledger :=
  actions.foldl (enter config) {}

end Ledger

end FleetMatch
