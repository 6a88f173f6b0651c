import FleetMatch.Proofs.Engine.Stage

/-!
# A background task with a regular clock

`Background` is what becomes of a task whose timer is never late and whose switch is looked at as soon
as it is used.  Whatever such a task does is a run among others, if its sources use the engine as
everybody does, by calling it.

* `Reaches`: some run leads from one stage to another.
* `Background.Mirrors`: a stage shows a task, with times in nanoseconds.
* `Mirrors.wait`, `Mirrors.turn`, `Mirrors.giveUp` — what is done to the task is done to the stage by a
  run.
* `reaches_after` — the whole life of a task is a run.
-/

set_option autoImplicit false

namespace FleetMatch

/-- Some run leads from one stage to another. -/
def Reaches (plan : Plan) (s s' : Stage) : Prop := ∃ actions, Run plan s actions s'

section

variable {plan : Plan} {s s' s'' : Stage} {a : Action} {actions more : List Action}

theorem Run.append (run : Run plan s actions s') (further : Run plan s' more s'') :
    Run plan s (actions ++ more) s'' := by
  induction further with
  | nil => rwa [List.append_nil]
  | snoc _ step ih =>
    rw [← List.append_assoc]
    exact ih.snoc step

theorem Reaches.refl (s : Stage) : Reaches plan s s := ⟨[], .nil⟩

theorem Reaches.trans (first : Reaches plan s s') (second : Reaches plan s' s'') :
    Reaches plan s s'' := by
  obtain ⟨actions, run⟩ := first
  obtain ⟨more, further⟩ := second
  exact ⟨actions ++ more, run.append further⟩

theorem Reaches.step (reaches : Reaches plan s s') (step : Step plan s' a s'') :
    Reaches plan s s'' := by
  obtain ⟨actions, run⟩ := reaches
  exact ⟨actions ++ [a], run.snoc step⟩

theorem Reaches.calls (reaches : Reaches plan s s') (calls : List Call) :
    Reaches plan s { s' with engine := s'.engine.performAll calls } := by
  induction calls generalizing s' with
  | nil => exact reaches
  | cons call rest ih =>
    have called := reaches.step (@Step.call plan s' call)
    exact ih called

end

/-! ## Sources -/

/-- While it loads, a source uses the engine only by calls. -/
def Source.OnlyCalls (source : Source) : Prop :=
  ∀ e, ∃ calls, (source.load e).engine = e.performAll calls

theorem Engine.reloadApart_engine (e : Engine) (source : Source) (config : IndexConfig) :
    (e.reloadApart source config).engine =
      ((source.load e).engine.settle source.description config (source.load e).answer).engine := by
  simp only [reloadApart]
  split <;> rfl

theorem Engine.reloadApart_events (e : Engine) (source : Source) (config : IndexConfig) :
    (e.reloadApart source config).events = .reloading source.description :: (source.load e).events ++
      ((source.load e).engine.settle source.description config (source.load e).answer).events := by
  simp only [reloadApart]
  split <;> rfl

/-- A whole reload, from a source that uses the engine only by calls. -/
theorem Reaches.reload {plan : Plan} {s s' : Stage} {source : Source} (reaches : Reaches plan s s')
    (waiting : s'.phase = .waiting) (due : s'.due ≤ s'.now) (sound : source.OnlyCalls) :
    Reaches plan s
      { s' with
        engine := (s'.engine.reloadApart source plan.config).engine
        due := s'.due + plan.period
        phase := .waiting
        events := (s'.engine.reloadApart source plan.config).events.reverse ++ s'.events } := by
  obtain ⟨calls, used⟩ := sound s'.engine
  -- What the source does to the engine falls between the beginning of the reload and the loading.
  have begun := reaches.step (@Step.begin plan s' source.description _ waiting due (Nat.le_refl _))
  have called := begun.calls calls
  have loaded := called.step
    (@Step.load plan _ _ (source.load s'.engine).answer (source.load s'.engine).events rfl)
  have finished := loaded.step (.finish rfl)
  rw [Engine.reloadApart_engine, Engine.reloadApart_events]
  simp only [← used] at finished
  simpa using finished

/-! ## Tasks and stages -/

/-- What a routine is, told in nanoseconds. -/
def Routine.plan (r : Routine) : Plan := ⟨r.interval * millisecond, r.config⟩

theorem Routine.period_plan (r : Routine) : r.plan.period = r.period * millisecond := by
  have one : millisecond = 1 * millisecond := (Nat.one_mul _).symm
  show max (r.interval * millisecond) millisecond = max r.interval 1 * millisecond
  rw [← Nat.mul_max_mul_right, ← one]

namespace Background

variable {routine : Routine} {b : Background} {s : Stage}

/-- A stage shows a task. -/
structure Mirrors (b : Background) (s : Stage) : Prop where
  engine : s.engine = b.engine
  now : s.now = b.now * millisecond
  events : s.events = b.events
  waiting : b.running = true → s.phase = .waiting ∧ s.due = b.due * millisecond ∧
    s.switch.unseen = false ∧ s.switch.closed = false
  stopped : b.running = false → s.phase = .stopped

theorem start_mirrors (routine : Routine) (e : Engine) :
    ∃ s, Reaches routine.plan (.spawn e {}) s ∧ (start routine e).Mirrors s := by
  have fresh : Reaches routine.plan (.spawn e {}) (.spawn e {}) := .refl _
  refine ⟨_, fresh.step (.arm rfl), ?_⟩
  have period := routine.period_plan
  constructor
  case engine => rfl
  case now => simp [start, Stage.spawn]
  case events =>
    simp only [start, Stage.spawn, period]
    rw [Nat.mul_div_cancel _ (by decide : 0 < millisecond)]
  case waiting =>
    intro _
    refine ⟨rfl, ?_, rfl, rfl⟩
    simp [start, Stage.spawn, period]
  case stopped => simp [start]

theorem Mirrors.pass (plan : Plan) (h : b.Mirrors s) (duration : Nat) :
    ∃ s', Reaches plan s s' ∧ Mirrors { b with now := b.now + duration } s' := by
  have passes := (Reaches.refl s).step (@Step.pass plan s (duration * millisecond))
  refine ⟨_, passes, h.engine, ?_, h.events, h.waiting, h.stopped⟩
  show s.now + duration * millisecond = (b.now + duration) * millisecond
  rw [h.now, Nat.add_mul]

/-- A reload begins as soon as it is due. -/
theorem Mirrors.tick (h : b.Mirrors s) (running : b.running = true)
    (sound : ∀ n, (routine.source n).OnlyCalls) :
    ∃ s', Reaches routine.plan s s' ∧
      Mirrors { Background.tick routine b with now := max b.now b.due } s' := by
  obtain ⟨mid, passed, shown⟩ := h.pass routine.plan (b.due - b.now)
  have later : b.now + (b.due - b.now) = max b.now b.due := by omega
  rw [later] at shown
  obtain ⟨waiting, due, unseen, held⟩ := shown.waiting running
  have engine := shown.engine
  have events := shown.events
  have now := shown.now
  have reached : mid.due ≤ mid.now := by
    rw [due, now]
    exact Nat.mul_le_mul_right _ (Nat.le_max_right _ _)
  have reloaded := passed.reload waiting reached (sound b.reloads)
  refine ⟨_, reloaded, ?_⟩
  constructor
  case engine =>
    rw [engine]
    rfl
  case now => exact now
  case events =>
    rw [engine, events]
    rfl
  case waiting =>
    intro _
    refine ⟨rfl, ?_, unseen, held⟩
    show mid.due + routine.plan.period = (b.due + routine.period) * millisecond
    rw [due, routine.period_plan, Nat.add_mul]
  case stopped =>
    intro stopped
    exact absurd running (by simp [show b.running = false from stopped])

/-- The reloads that are due up to a time, and then nothing until this time.  The clock of the task
stands still in between. -/
theorem Mirrors.catchUp (sound : ∀ n, (routine.source n).OnlyCalls) {now time : Nat}
    (h : Mirrors { b with now := now } s) (early : now ≤ time) :
    ∃ s', Reaches routine.plan s s' ∧
      Mirrors { Background.catchUp routine time b with now := time } s' := by
  induction b using Background.catchUp.induct routine time generalizing s now with
  | case1 b going ih =>
    obtain ⟨mid, ticked, shown⟩ := h.tick going.1 sound
    have latest : max now b.due ≤ time := Nat.max_le.2 ⟨early, going.2⟩
    obtain ⟨s', caught, shown'⟩ := ih shown latest
    unfold Background.catchUp
    rw [if_pos going]
    exact ⟨s', ticked.trans caught, shown'⟩
  | case2 b idle =>
    obtain ⟨s', passed, shown⟩ := h.pass routine.plan (time - now)
    have reached : now + (time - now) = time := by omega
    unfold Background.catchUp
    rw [if_neg idle]
    refine ⟨s', passed, ?_⟩
    simpa only [reached] using shown

theorem Mirrors.wait (h : b.Mirrors s) (sound : ∀ n, (routine.source n).OnlyCalls)
    (duration : Nat) :
    ∃ s', Reaches routine.plan s s' ∧ (Background.wait routine duration b).Mirrors s' :=
  Mirrors.catchUp sound h (Nat.le_add_right b.now duration)

theorem stop_of_not_running (ended : b.running = false) : b.stop = b := by
  simp [Background.stop, ended]

/-- A stage whose task has just ended. -/
theorem Mirrors.ended (h : b.Mirrors s) (running : b.running = true) (switch : Switch) :
    b.stop.Mirrors
      { s with
        phase := .stopped
        switch := switch
        events := .taskStopped s.engine.version :: s.events } := by
  have stop : b.stop =
      { b with running := false, events := .taskStopped b.engine.version :: b.events } := by
    simp [Background.stop, running]
  rw [stop]
  refine ⟨h.engine, h.now, ?_, nofun, fun _ => rfl⟩
  rw [h.engine, h.events]

/-- A task looks at its switch as soon as it is turned. -/
theorem Mirrors.turn (plan : Plan) (h : b.Mirrors s) (on : Bool) :
    ∃ s', Reaches plan s s' ∧ (Background.turn on b).Mirrors s' := by
  cases running : b.running with
  | false =>
    refine ⟨s, .refl s, ?_⟩
    have kept : Background.turn on b = b := by
      simp [Background.turn, stop_of_not_running running]
    rw [kept]
    exact h
  | true =>
    obtain ⟨waiting, due, unseen, held⟩ := h.waiting running
    have turned := (Reaches.refl s).step (@Step.turn plan s on held)
    have woken := turned.step (.wake waiting rfl)
    cases on with
    | true => exact ⟨_, woken.step (.stop rfl rfl), h.ended running _⟩
    | false =>
      refine ⟨_, woken.step (.stay rfl rfl), h.engine, h.now, h.events, ?_, ?_⟩
      · intro _
        exact ⟨rfl, due, rfl, held⟩
      · intro ended
        simp [Background.turn, running] at ended

/-- A task ends as soon as its switch is given up. -/
theorem Mirrors.giveUp (plan : Plan) (h : b.Mirrors s) :
    ∃ s', Reaches plan s s' ∧ b.giveUp.Mirrors s' := by
  cases running : b.running with
  | false =>
    refine ⟨s, .refl s, ?_⟩
    have kept : b.giveUp = b := stop_of_not_running running
    rw [kept]
    exact h
  | true =>
    obtain ⟨waiting, -, unseen, held⟩ := h.waiting running
    have given := (Reaches.refl s).step (@Step.giveUp plan s held)
    exact ⟨_, given.step (.leave waiting unseen rfl), h.ended running _⟩

/-! ## Whole lives -/

/-- What is done to a task. -/
inductive Use where
  | wait (duration : Nat)
  | turn (on : Bool)
  | giveUp

/-- What is done to a task, and what becomes of it. -/
def use (routine : Routine) (b : Background) : Use → Background
  | .wait duration => b.wait routine duration
  | .turn on => b.turn on
  | .giveUp => b.giveUp

theorem Mirrors.use (h : b.Mirrors s) (sound : ∀ n, (routine.source n).OnlyCalls) (use : Use) :
    ∃ s', Reaches routine.plan s s' ∧ (b.use routine use).Mirrors s' := by
  cases use with
  | wait duration => exact h.wait sound duration
  | turn on => exact h.turn routine.plan on
  | giveUp => exact h.giveUp routine.plan

/-- **The whole life of a task is a run**, and so whatever holds of every run holds of the task. -/
theorem reaches_after (routine : Routine) (sound : ∀ n, (routine.source n).OnlyCalls) (e : Engine)
    (uses : List Use) :
    ∃ s, Reaches routine.plan (.spawn e {}) s ∧
      (uses.foldl (use routine) (start routine e)).Mirrors s := by
  induction uses using List.reverseRecOn with
  | nil => exact start_mirrors routine e
  | append_singleton uses last ih =>
    obtain ⟨s, reached, shown⟩ := ih
    obtain ⟨s', further, shown'⟩ := shown.use sound last
    rw [List.foldl_append]
    exact ⟨s', reached.trans further, shown'⟩

end Background

end FleetMatch
