import FleetMatch.Proofs.Engine.Background

/-!
# What the log is told about reloads

A background task does not look at what becomes of a reload: whatever goes wrong has to be told to the log
by the reload itself.  A reload that gets no roster, or one that is refused, tells a warning.  A source
that crashes takes the reload down before it can tell anything.

* `Engine.settle_warns` — what cannot be published is warned of.
* `Underway`, `Run.underway`: where in a run the reload began that is going on.
* `Told`, `run_told` — every reload of every run, with all that was told about it.
* `crash_untold` — a crash is not told.
-/

set_option autoImplicit false

namespace FleetMatch

/-- Some event is a warning. -/
def Warned (events : List Event) : Prop := ∃ event ∈ events, event.severity = .warn

/-- What the source has given is a roster that passes the check. -/
def Loading.Fit (given : Loading) : Prop := ∃ roster, given = .loaded roster ∧ roster.check = .ok ()

/-! ## One reload -/

namespace Engine

variable (e : Engine) (source : String) (config : IndexConfig)

theorem publish_warns {roster : Roster} {err : RosterError} (refused : roster.check = .error err) :
    Warned (e.publish source config roster).events := by
  have unbuilt := Index.build?_of_error config refused
  unfold publish
  rw [unbuilt]
  exact ⟨.buildFailed source err e.version, List.mem_singleton_self _, rfl⟩

/-- **What cannot be published is warned of**, unless the source has crashed. -/
theorem settle_warns {given : Loading} (unfit : ¬ given.Fit) (sound : ∀ reason, given ≠ .crashed reason) :
    Warned (e.settle source config given).events := by
  cases given with
  | crashed reason => exact absurd rfl (sound reason)
  | failed err => exact ⟨.loadFailed source err e.version, List.mem_singleton_self _, rfl⟩
  | loaded roster =>
    cases checked : roster.check with
    | error err => exact e.publish_warns source config checked
    | ok _ => exact absurd ⟨roster, rfl, checked⟩ unfit

theorem settle_crashed (reason : String) : (e.settle source config (.crashed reason)).events = [] := rfl

end Engine

/-! ## Reloads of a run -/

/-- Only others act: the clock, the callers of the engine and the holders of the switch. -/
def OnlyOthers (actions : List Action) : Prop := ∀ a ∈ actions, a.isOfTask = false

variable {plan : Plan} {start s s' : Stage} {actions : List Action} {a : Action}

theorem OnlyOthers.concat (h : OnlyOthers actions) (other : a.isOfTask = false) :
    OnlyOthers (actions ++ [a]) := by
  intro b hb
  rcases List.mem_append.1 hb with hb | hb
  · exact h b hb
  · rw [List.mem_singleton.1 hb]
    exact other

/-- The reload of a source that is going on began at a moment of the run, and since then only others have
acted.  The log has been told nothing but the beginning. -/
def BegunAt (plan : Plan) (start : Stage) (source : String) (actions : List Action) (began s : Stage) :
    Prop :=
  ∃ before next between, actions = before ++ .begin source next :: between ∧
    Run plan start before began ∧ OnlyOthers between ∧ s.events = .reloading source :: began.events

/-- The source of the reload that is going on is done with loading: this came after the beginning, and
only others have acted otherwise.  The log has been told the beginning and what the source has told. -/
def LoadedAt (plan : Plan) (start : Stage) (source : String) (given : Loading) (told : List Event)
    (actions : List Action) (began s : Stage) : Prop :=
  ∃ before next between after,
    actions = before ++ .begin source next :: (between ++ .load given told :: after) ∧
      Run plan start before began ∧ OnlyOthers between ∧ OnlyOthers after ∧
        s.events = told.reverse ++ .reloading source :: began.events

/-- A reload that is going on has begun. -/
structure Underway (plan : Plan) (start : Stage) (actions : List Action) (s : Stage) : Prop where
  loading : ∀ source, s.phase = .loading source → ∃ began, BegunAt plan start source actions began s
  loaded : ∀ source given, s.phase = .loaded source given →
    ∃ told began, LoadedAt plan start source given told actions began s

theorem BegunAt.concat {source : String} {began : Stage} (h : BegunAt plan start source actions began s)
    (other : a.isOfTask = false) (quiet : s'.events = s.events) :
    BegunAt plan start source (actions ++ [a]) began s' := by
  obtain ⟨before, next, between, rfl, run, others, events⟩ := h
  exact ⟨before, next, between ++ [a], by simp, run, others.concat other, quiet.trans events⟩

theorem LoadedAt.concat {source : String} {given : Loading} {told : List Event} {began : Stage}
    (h : LoadedAt plan start source given told actions began s) (other : a.isOfTask = false)
    (quiet : s'.events = s.events) :
    LoadedAt plan start source given told (actions ++ [a]) began s' := by
  obtain ⟨before, next, between, after, rfl, run, others, others', events⟩ := h
  exact ⟨before, next, between, after ++ [a], by simp, run, others, others'.concat other,
    quiet.trans events⟩

theorem LoadedAt.events {source : String} {given : Loading} {told : List Event} {began : Stage}
    (h : LoadedAt plan start source given told actions began s) :
    s.events = told.reverse ++ .reloading source :: began.events := by
  obtain ⟨_, _, _, _, _, _, _, _, events⟩ := h
  exact events

theorem Underway.step (h : Underway plan start actions s) (run : Run plan start actions s)
    (step : Step plan s a s') : Underway plan start (actions ++ [a]) s' := by
  cases step with
  | pass | call | turn | giveUp =>
    constructor
    · intro source phase
      obtain ⟨began, begun⟩ := h.loading source phase
      exact ⟨began, begun.concat rfl rfl⟩
    · intro source given phase
      obtain ⟨told, began, loaded⟩ := h.loaded source given phase
      exact ⟨told, began, loaded.concat rfl rfl⟩
  | @begin source next =>
    constructor
    · rintro _ ⟨⟩
      exact ⟨s, actions, next, [], rfl, run, nofun, rfl⟩
    · rintro _ _ ⟨⟩
  | @load source given told busy =>
    constructor
    · rintro _ ⟨⟩
    · rintro _ _ ⟨⟩
      obtain ⟨began, before, next, between, rfl, run, others, events⟩ := h.loading source busy
      refine ⟨told, began, before, next, between, [], by simp, run, others, nofun, ?_⟩
      show told.reverse ++ s.events = _
      rw [events]
  | arm | finish | wake | leave | stay | stop =>
    constructor
    · rintro _ ⟨⟩
    · rintro _ _ ⟨⟩

theorem Run.underway {e : Engine} {switch : Switch} (run : Run plan (.spawn e switch) actions s) :
    Underway plan (.spawn e switch) actions s := by
  induction run with
  | nil =>
    constructor
    · rintro _ ⟨⟩
    · rintro _ _ ⟨⟩
  | snoc run step ih => exact ih.step run step

/-- What is told of a reload from its beginning at one stage to its end, which leads from a second stage to
a third.  `log` is all that the log is told in between, the earliest first, of which `told` comes from the
source. -/
structure Told (plan : Plan) (source : String) (given : Loading) (told log : List Event)
    (began last done : Stage) : Prop where
  whole : done.events = log.reverse ++ began.events
  /-- Either the next version is published, or nothing is. -/
  published : given.Fit → done.engine.version = last.engine.version + 1
  kept : ¬ given.Fit → done.engine = last.engine
  /-- A reload that publishes nothing is warned of, unless its source has crashed. -/
  warned : ¬ given.Fit → (∀ reason, given ≠ .crashed reason) → Warned log
  /-- Of a crash nothing is told. -/
  untold : ∀ reason, given = .crashed reason → log = .reloading source :: told

/-- **Every reload of every run**: it began at some moment and its source was then done with loading, while
only others acted besides, and either it published an index, or a warning was told since it began, or its
source has crashed, in which case nothing was told but what the source itself has told. -/
theorem run_told {e : Engine} {switch : Switch} {done : Stage}
    (run : Run plan (.spawn e switch) actions s) (ends : Step plan s .finish done) :
    ∃ source given told log began, LoadedAt plan (.spawn e switch) source given told actions began s ∧
      Told plan source given told log began s done := by
  cases ends with
  | @finish source given busy =>
    obtain ⟨told, began, loaded⟩ := run.underway.loaded source given busy
    refine ⟨source, given, told,
      .reloading source :: told ++ (s.engine.settle source plan.config given).events, began, loaded, ?_⟩
    constructor
    case whole => simp [loaded.events]
    case published =>
      rintro ⟨roster, rfl, accepted⟩
      exact (s.engine.settle_published source plan.config rfl accepted).version
    case kept =>
      intro unfit
      exact s.engine.settle_kept source plan.config fun roster same accepted => unfit ⟨roster, same, accepted⟩
    case warned =>
      intro unfit sound
      obtain ⟨event, member, warning⟩ := s.engine.settle_warns source plan.config unfit sound
      exact ⟨event, List.mem_append_right _ member, warning⟩
    case untold =>
      rintro reason rfl
      simp [Engine.settle_crashed]

/-- A caller swaps in an index while the source of a reload fails. -/
theorem failure_told :
    let plan : Plan := ⟨0, {}⟩
    let spawned : Stage := .spawn (.start (.empty .euclidean)) {}
    let actions : List Action := [.arm, .pass 1000000, .begin "clients" 2000000,
      .call (.swap (.empty .euclidean)), .load (.failed (.invalidRow 4 "no id")) []]
    ∃ s done, Run plan spawned actions s ∧ Step plan s .finish done ∧ done.engine.version.toNat = 1 ∧
      ∃ source given told log began, LoadedAt plan spawned source given told actions began s ∧
        Told plan source given told log began s done := by
  intro plan spawned actions
  have start : Run plan spawned [] spawned := .nil
  have first := (start.snoc (.arm rfl)).snoc (@Step.pass plan _ 1000000)
  have begun := first.snoc (@Step.begin plan _ "clients" 2000000 rfl (by decide) (by decide))
  have swapped := begun.snoc (@Step.call plan _ (.swap (.empty .euclidean)))
  have failed := swapped.snoc (@Step.load plan _ _ (.failed (.invalidRow 4 "no id")) [] rfl)
  exact ⟨_, _, failed, .finish rfl, rfl, run_told failed (.finish rfl)⟩

/-- **A crash can leave no warning at all**: nothing is published, and the log is told the beginning of
the task and of the reload only. -/
theorem crash_untold :
    let plan : Plan := ⟨0, {}⟩
    let spawned : Stage := .spawn (.start (.empty .euclidean)) {}
    ∃ s done, Run plan spawned [.arm, .pass 1000000, .begin "clients" 2000000,
        .load (.crashed "stack overflow") []] s ∧
      Step plan s .finish done ∧ done.engine = s.engine ∧
        done.events = [.reloading "clients", .taskStarted 1] ∧ ¬ Warned done.events := by
  intro plan spawned
  have start : Run plan spawned [] spawned := .nil
  have first := (start.snoc (.arm rfl)).snoc (@Step.pass plan _ 1000000)
  have begun := first.snoc (@Step.begin plan _ "clients" 2000000 rfl (by decide) (by decide))
  have crashed := begun.snoc (@Step.load plan _ _ (.crashed "stack overflow") [] rfl)
  have once : plan.period / millisecond = 1 := by decide
  have events : [Event.reloading "clients", .taskStarted (plan.period / millisecond)] =
    [.reloading "clients", .taskStarted 1] := by rw [once]
  refine ⟨_, _, crashed, .finish rfl, rfl, events, ?_⟩
  rintro ⟨event, member, warning⟩
  rcases List.mem_cons.1 member with rfl | member
  · cases warning
  · rw [List.mem_singleton.1 member] at warning
    cases warning

end FleetMatch
