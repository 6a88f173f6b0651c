import FleetMatch.Engine.Reload

/-!
# Reloading in the background

A background task reloads an engine at regular times of a clock that counts milliseconds.  The first
reload comes one period after the start, and every further one a period later.  A failed reload does
not end the task.  The task has a switch: it ends as soon as the switch is turned to `true` or given
up; turning it to `false` changes nothing.

* `Background.start`: a task that has just been started.
* `Background.wait`: lets time pass.
* `Background.turn`, `Background.giveUp`: uses the switch.
-/

namespace FleetMatch

/-- What a background task does. -/
structure Routine where
  /-- The time between two reloads, in milliseconds. -/
  interval : Nat
  /-- The source of each reload, counted from zero. -/
  source : Nat → Source
  config : IndexConfig

/-- The time between two reloads, at least one millisecond. -/
def Routine.period (r : Routine) : Nat := max r.interval 1

/-- A background task and the engine that it reloads. -/
structure Background where
  engine : Engine
  /-- The time since the start. -/
  now : Nat
  /-- The time of the next reload. -/
  due : Nat
  running : Bool
  /-- The number of reloads so far. -/
  reloads : Nat
  /-- What has happened, the latest first. -/
  events : List Event

namespace Background

/-- A task that has just been started on an engine. -/
def start (routine : Routine) (engine : Engine) : Background :=
  ⟨engine, 0, routine.period, true, 0, [.taskStarted routine.period]⟩

/-- One reload; the next one is due a period later. -/
def tick (routine : Routine) (b : Background) : Background :=
  let done := b.engine.reloadApart (routine.source b.reloads) routine.config
  { b with
    engine := done.engine
    due := b.due + routine.period
    reloads := b.reloads + 1
    events := done.events.reverse ++ b.events }

theorem period_pos (routine : Routine) : 0 < routine.period := by
  simp only [Routine.period]
  omega

/-- The reloads that are due up to a time. -/
def catchUp (routine : Routine) (time : Nat) (b : Background) : Background :=
  if b.running ∧ b.due ≤ time then catchUp routine time (tick routine b) else b
termination_by time + 1 - b.due
decreasing_by
  have := period_pos routine
  simp only [tick]
  omega

/-- Lets so many milliseconds pass. -/
def wait (routine : Routine) (duration : Nat) (b : Background) : Background :=
  { catchUp routine (b.now + duration) b with now := b.now + duration }

/-- The task ends. -/
def stop (b : Background) : Background :=
  if b.running then
    { b with running := false, events := .taskStopped b.engine.version :: b.events }
  else b

/-- Turns the switch. -/
def turn (on : Bool) (b : Background) : Background := if on then b.stop else b

/-- Gives the switch up. -/
def giveUp (b : Background) : Background := b.stop

end Background

end FleetMatch
