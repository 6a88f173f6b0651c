import Mathlib.Data.List.Induction
import FleetMatch.Engine.Stage
import FleetMatch.Proofs.Engine.Reload

/-!
# What a background task does among others

Whatever the order in which a task, its callers, its clock and the holders of its switch act, the task
keeps to its plan: reloads do not begin early, only a roster that passes the check is published, and a
task that has ended leaves the engine alone.

* `Step.engine_eq` — only calls and the ends of reloads touch the engine.
* `Timely`, `Tracked`, `Unswitched`: what every step keeps; `Run.timely`, `Run.tracked` and
  `Run.unswitched` hold of every run.
* `Ledger.length_swapped` — every index that became current came from a caller or from a reload.
* `Run.stopped` — what happens after the end of the task.
* `Conduct`, `run_conduct` — all of it, at every moment of every run.
-/

set_option autoImplicit false

namespace FleetMatch

/-! ## The ends of reloads -/

theorem Loading.index?_eq_none {config : IndexConfig} {given : Loading}
    (unfit : ∀ roster, given = .loaded roster → roster.check ≠ .ok ()) :
    Loading.index? config given = none := by
  cases given with
  | loaded roster =>
    cases checked : roster.check with
    | ok _ => exact absurd checked (unfit roster rfl)
    | error err => simp [Loading.index?, Index.build?_of_error config checked, Except.toOption]
  | failed err => rfl
  | crashed reason => rfl

namespace Engine

variable (e : Engine) (source : String) (config : IndexConfig) {given : Loading}

theorem settle_published {roster : Roster} (loaded : given = .loaded roster)
    (accepted : roster.check = .ok ()) :
    e.Published config roster (e.settle source config given).engine :=
  (e.settle_allOrNothing source config given []).published roster loaded accepted

theorem settle_kept (unfit : ∀ roster, given = .loaded roster → roster.check ≠ .ok ()) :
    (e.settle source config given).engine = e := by
  have settled := e.settle_allOrNothing source config given []
  refine settled.kept ?_
  intro version published
  obtain ⟨-, roster, loaded, accepted⟩ := (settled.published_iff version).1 published
  exact unfit roster loaded accepted

end Engine

/-! ## Balance -/

/-- The engine of a run that has made some indexes current, the latest last. -/
structure Balanced (start : Engine) (swapped : List Index) (e : Engine) : Prop where
  version : e.version = start.version + UInt64.ofNat swapped.length
  index : e.index = swapped.getLastD start.index
  swaps : e.counters.swaps = start.counters.swaps + UInt64.ofNat swapped.length
  emptySwaps : e.counters.emptySwaps =
    start.counters.emptySwaps + UInt64.ofNat (swapped.countP Index.isEmpty)

namespace Balanced

variable {start e e' : Engine} {swapped : List Index} {ix : Index}

theorem refl (start : Engine) : Balanced start [] start := by
  constructor <;> simp

theorem swap (h : Balanced start swapped e) (version : e'.version = e.version + 1)
    (index : e'.index = ix) (swaps : e'.counters.swaps = e.counters.swaps + 1)
    (emptySwaps : e'.counters.emptySwaps = e.counters.emptySwaps + if ix.isEmpty then 1 else 0) :
    Balanced start (swapped ++ [ix]) e' := by
  constructor
  · rw [version, h.version, List.length_append, UInt64.ofNat_add, UInt64.add_assoc]
    rfl
  · rw [index, List.getLastD_concat]
  · rw [swaps, h.swaps, List.length_append, UInt64.ofNat_add, UInt64.add_assoc]
    rfl
  · rw [emptySwaps, h.emptySwaps, List.countP_append, UInt64.ofNat_add, UInt64.add_assoc]
    cases empty : ix.isEmpty <;> simp [empty]

theorem perform (h : Balanced start swapped e) (call : Call) :
    Balanced start (swapped ++ call.swapped?.toList) (e.perform call).2 := by
  have current := e.perform_current call
  have counters := e.perform_counters call
  cases swap : call.swapped? with
  | some ix =>
    rw [swap] at current counters
    have version : (e.perform call).2.version = e.version + 1 := by
      rw [Engine.version, current]
      rfl
    have index : (e.perform call).2.index = ix := by
      rw [Engine.index, current]
      rfl
    have swaps : (e.perform call).2.counters.swaps = e.counters.swaps + 1 := by
      rw [counters]
      rfl
    have emptySwaps : (e.perform call).2.counters.emptySwaps =
        e.counters.emptySwaps + if ix.isEmpty then 1 else 0 := by
      rw [counters]
      cases empty : ix.isEmpty <;> simp [Counters.addSwap, empty]
    exact h.swap version index swaps emptySwaps
  | none =>
    rw [swap] at current counters
    rw [Option.toList_none, List.append_nil]
    constructor
    · rw [Engine.version, current]
      exact h.version
    · rw [Engine.index, current]
      exact h.index
    · rw [counters]
      exact h.swaps
    · rw [counters]
      exact h.emptySwaps

theorem published {config : IndexConfig} {roster : Roster} (h : Balanced start swapped e)
    (published : e.Published config roster e') : Balanced start (swapped ++ [e'.index]) e' := by
  refine h.swap published.version rfl published.swaps ?_
  rw [published.emptySwaps, Index.isEmpty, published.holds]
  cases roster <;> rfl

end Balanced

/-! ## Ledgers -/

theorem elapsed_concat (actions : List Action) (a : Action) :
    elapsed (actions ++ [a]) = elapsed actions + a.duration := by
  induction actions with
  | nil => simp [elapsed]
  | cons b rest ih => simp only [List.cons_append, elapsed, ih, Nat.add_assoc]

namespace Ledger

variable (config : IndexConfig) {l : Ledger} {given : Loading}

theorem ofActions_concat (actions : List Action) (a : Action) :
    ofActions config (actions ++ [a]) = (ofActions config actions).enter config a := by
  simp [ofActions]

variable {config}

theorem enter_finish_some {ix : Index} (pending : l.pending = some given)
    (made : given.index? config = some ix) :
    l.enter config .finish = ⟨none, l.swapped ++ [ix], l.reloads + 1⟩ := by
  simp [enter, pending, made]

theorem enter_finish_none (pending : l.pending = some given) (unmade : given.index? config = none) :
    l.enter config .finish = { l with pending := none } := by
  simp [enter, pending, unmade]

theorem length_swapped (config : IndexConfig) (actions : List Action) :
    (ofActions config actions).swapped.length =
      (actions.filterMap Action.swapped?).length + (ofActions config actions).reloads := by
  induction actions using List.reverseRecOn with
  | nil => rfl
  | append_singleton actions a ih =>
    rw [ofActions_concat, List.filterMap_append, List.length_append]
    cases a with
    | call c =>
      cases swap : c.swapped? with
      | none => simp [enter, Action.swapped?, Action.call?, swap, ih]
      | some ix =>
        simp [enter, Action.swapped?, Action.call?, swap, ih]
        omega
    | finish =>
      have uncalled : [Action.finish].filterMap Action.swapped? = [] := rfl
      rw [uncalled, List.length_nil]
      cases made : (ofActions config actions).pending.bind (Loading.index? config) with
      | none => simp [enter, made, ih]
      | some ix =>
        simp only [enter, made, List.length_append, List.length_singleton, ih]
        omega
    | _ => simp [enter, Action.swapped?, Action.call?, ih]

end Ledger

/-! ## What every step keeps -/

section

variable {plan : Plan} {start s s' : Stage} {actions : List Action} {a : Action}

/-- Only calls and the ends of reloads touch the engine. -/
theorem Step.engine_eq (step : Step plan s a s') (uncalled : a.call? = none) (ends : a ≠ .finish) :
    s'.engine = s.engine := by
  cases step with
  | call => cases uncalled
  | finish => exact absurd rfl ends
  | _ => rfl

/-- The clock shows the time that has passed, and nothing is due before a period has. -/
structure Timely (plan : Plan) (actions : List Action) (s : Stage) : Prop where
  now : s.now = elapsed actions
  due : s.phase ≠ .spawned → plan.period ≤ s.due

theorem Timely.step (h : Timely plan actions s) (step : Step plan s a s') :
    Timely plan (actions ++ [a]) s' := by
  have now := h.now
  constructor
  · rw [elapsed_concat, ← now]
    cases step <;> rfl
  · intro fresh
    cases step with
    | pass | call | turn | giveUp => exact h.due fresh
    | arm => exact Nat.le_add_left _ _
    | @begin _ next idle _ later =>
      have early := h.due (by simp [idle])
      show plan.period ≤ next
      omega
    | load phase | finish phase | wake phase | leave phase | stay phase | stop phase =>
      exact h.due (by simp [phase])

/-- The engine is the one that the ledger tells of, and the ledger knows what was loaded last. -/
structure Tracked (plan : Plan) (e : Engine) (l : Ledger) (s : Stage) : Prop where
  balanced : Balanced e l.swapped s.engine
  pending : ∀ source given, s.phase = .loaded source given → l.pending = some given

theorem Tracked.step {e : Engine} {l : Ledger} (h : Tracked plan e l s) (step : Step plan s a s') :
    Tracked plan e (l.enter plan.config a) s' := by
  cases step with
  | call => exact ⟨h.balanced.perform _, h.pending⟩
  | pass | turn | giveUp => exact ⟨h.balanced, h.pending⟩
  | load _ =>
    refine ⟨h.balanced, ?_⟩
    rintro source given ⟨⟩
    rfl
  | arm | begin | wake | leave | stay | stop =>
    refine ⟨h.balanced, ?_⟩
    rintro source given ⟨⟩
  | @finish source given busy =>
    have pending := h.pending source given busy
    refine ⟨?_, by rintro source' given' ⟨⟩⟩
    -- The ledger makes an index of what was loaded exactly where the engine publishes it.
    by_cases fit : ∃ roster, given = .loaded roster ∧ roster.check = .ok ()
    · obtain ⟨roster, rfl, accepted⟩ := fit
      have published := s.engine.settle_published source plan.config rfl accepted
      have made : Loading.index? plan.config (.loaded roster) = some _ :=
        congrArg Except.toOption published.built
      rw [Ledger.enter_finish_some pending made]
      exact h.balanced.published published
    · have unfit : ∀ roster, given = .loaded roster → roster.check ≠ .ok () := by
        intro roster loaded accepted
        exact fit ⟨roster, loaded, accepted⟩
      rw [Ledger.enter_finish_none pending (Loading.index?_eq_none unfit)]
      show Balanced e l.swapped (s.engine.settle source plan.config given).engine
      rw [Engine.settle_kept _ _ _ unfit]
      exact h.balanced

/-- Nobody has turned the switch on or given it up, and the task is still there. -/
structure Unswitched (s : Stage) : Prop where
  off : s.switch.on = false
  held : s.switch.closed = false
  going : s.phase ≠ .stopped

theorem Unswitched.step (h : Unswitched s) (step : Step plan s a s') (on : a ≠ .turn true)
    (given : a ≠ .giveUp) : Unswitched s' := by
  cases step with
  | turn _ =>
    rename_i value _
    cases value with
    | true => exact absurd rfl on
    | false => exact ⟨rfl, h.held, h.going⟩
  | giveUp => exact absurd rfl given
  | leave _ _ closed => simp [h.held] at closed
  | stop _ turned => simp [h.off] at turned
  | pass | call => exact ⟨h.off, h.held, h.going⟩
  | arm | begin | load | finish | wake | stay => exact ⟨h.off, h.held, nofun⟩

/-- After its end a task does nothing. -/
theorem Step.stopped (step : Step plan s a s') (ended : s.phase = .stopped) :
    a.isOfTask = false ∧ s'.phase = .stopped ∧
      s'.engine = s.engine.performAll a.call?.toList := by
  cases step with
  | pass | call | turn | giveUp => exact ⟨rfl, ended, rfl⟩
  | arm phase | begin phase | load phase | finish phase | wake phase | leave phase | stay phase
  | stop phase => simp [ended] at phase

/-! ## What holds of every run -/

variable {e : Engine} {switch : Switch}

theorem Run.timely (run : Run plan (.spawn e switch) actions s) : Timely plan actions s := by
  induction run with
  | nil => exact ⟨rfl, fun fresh => absurd rfl fresh⟩
  | snoc _ step ih => exact ih.step step

theorem Run.tracked (run : Run plan (.spawn e switch) actions s) :
    Tracked plan e (.ofActions plan.config actions) s := by
  induction run with
  | nil => exact ⟨.refl e, nofun⟩
  | snoc _ step ih =>
    rw [Ledger.ofActions_concat]
    exact ih.step step

theorem Run.unswitched (run : Run plan (.spawn e switch) actions s) (off : switch.on = false)
    (held : switch.closed = false) (never : ∀ a ∈ actions, a ≠ .turn true ∧ a ≠ .giveUp) :
    Unswitched s := by
  induction run with
  | nil => exact ⟨off, held, nofun⟩
  | @snoc actions s s' a _ step ih =>
    have last := never a (List.mem_append_right _ List.mem_cons_self)
    have before := ih fun b hb => never b (List.mem_append_left _ hb)
    exact before.step step last.1 last.2

/-- **After its end a task leaves the engine to its callers.** -/
theorem Run.stopped (run : Run plan s actions s') (ended : s.phase = .stopped) :
    (∀ a ∈ actions, a.isOfTask = false) ∧ s'.phase = .stopped ∧
      s'.engine = s.engine.performAll (actions.filterMap Action.call?) := by
  induction run with
  | nil => exact ⟨nofun, ended, rfl⟩
  | @snoc actions mid s' a _ step ih =>
    obtain ⟨outside, still, engine⟩ := ih
    obtain ⟨last, stopped, engine'⟩ := step.stopped still
    refine ⟨?_, stopped, ?_⟩
    · intro b hb
      rcases List.mem_append.1 hb with hb | hb
      · exact outside b hb
      · rw [List.mem_singleton.1 hb]
        exact last
    · rw [engine', engine, List.filterMap_append]
      cases called : a.call? <;> simp [called, Engine.performAll]

/-- What holds at a moment of a run that starts with an engine and a switch. -/
structure Conduct (plan : Plan) (e : Engine) (switch : Switch) (actions : List Action)
    (s : Stage) : Prop where
  /-- No reload begins before a period has passed. -/
  early : ∀ source next s', Step plan s (.begin source next) s' → plan.period ≤ elapsed actions
  /-- The version counts the swaps of callers and the reloads that succeeded. -/
  version : s.engine.version = e.version + UInt64.ofNat
    ((actions.filterMap Action.swapped?).length + (Ledger.ofActions plan.config actions).reloads)
  /-- The index is the latest that a caller has swapped in or a reload has made. -/
  balanced : Balanced e (Ledger.ofActions plan.config actions).swapped s.engine
  /-- A reload ends by publishing the roster that was loaded, or else leaves the engine alone.  The
  task goes on. -/
  finish : ∀ s', Step plan s .finish s' → s'.phase = .waiting ∧
    ∃ given, (Ledger.ofActions plan.config actions).pending = some given ∧
      (∀ roster, given = .loaded roster → roster.check = .ok () →
        s.engine.Published plan.config roster s'.engine) ∧
      ((∀ roster, given = .loaded roster → roster.check ≠ .ok ()) → s'.engine = s.engine)
  /-- Nothing else but a call touches the engine. -/
  others : ∀ a s', Step plan s a s' → a ≠ .finish → a.call? = none → s'.engine = s.engine
  /-- The task ends only if the switch was turned on or given up. -/
  ends : s.phase = .stopped →
    switch.on = true ∨ switch.closed = true ∨ Action.turn true ∈ actions ∨ Action.giveUp ∈ actions
  /-- A task that looks at the switch ends if it is on, and goes on if it is off. -/
  look : ∀ s', Step plan s .look s' →
    s'.phase = if s.switch.on then .stopped else .waiting
  /-- A task that notices nothing but that the switch was given up ends. -/
  notice : ∀ s', Step plan s .notice s' → s.switch.unseen = false →
    s.switch.closed = true ∧ s'.phase = .stopped
  /-- A task that has ended begins no reload, publishes nothing, and has ended for good. -/
  stopped : s.phase = .stopped → ∀ more s', Run plan s more s' →
    (∀ a ∈ more, a.isOfTask = false) ∧ s'.phase = .stopped ∧
      s'.engine = s.engine.performAll (more.filterMap Action.call?)

/-- **A background task keeps to its plan at every moment of every run**, in whatever order it, its
callers, its clock and the holders of its switch act, and whatever its sources give. -/
theorem run_conduct (run : Run plan (.spawn e switch) actions s) :
    Conduct plan e switch actions s := by
  have tracked := run.tracked
  have balanced := tracked.balanced
  constructor
  case balanced => exact balanced
  case early =>
    intro source next s' step
    cases step with
    | begin idle due _ =>
      have timely := run.timely
      have later := timely.due (by simp [idle])
      rw [← timely.now]
      omega
  case version =>
    rw [balanced.version, Ledger.length_swapped]
  case finish =>
    intro s' step
    cases step with
    | @finish source given busy =>
      refine ⟨rfl, given, tracked.pending source given busy, ?_, ?_⟩
      · intro roster loaded accepted
        exact s.engine.settle_published source plan.config loaded accepted
      · intro unfit
        exact s.engine.settle_kept source plan.config unfit
  case others =>
    intro a s' step ends uncalled
    exact step.engine_eq uncalled ends
  case ends =>
    intro ended
    -- On a switch that nobody touches, no step leads to the end.
    by_contra untouched
    simp only [not_or, Bool.not_eq_true] at untouched
    obtain ⟨off, held, unturned, kept⟩ := untouched
    have never : ∀ a ∈ actions, a ≠ .turn true ∧ a ≠ .giveUp := by
      intro a ha
      constructor
      · rintro rfl
        exact unturned ha
      · rintro rfl
        exact kept ha
    exact (run.unswitched off held never).going ended
  case look =>
    intro s' step
    cases step with
    | stay _ off => simp [off]
    | stop _ on => simp [on]
  case notice =>
    intro s' step seen
    cases step with
    | wake _ turned => simp [seen] at turned
    | leave _ _ closed => exact ⟨closed, rfl⟩
  case stopped =>
    intro ended more s' further
    exact further.stopped ended

/-- Three reloads, of which a crash ends the first one and an empty roster the last one, while a caller
swaps in an index during the second one. -/
theorem eventful_conduct :
    let plan : Plan := ⟨0, {}⟩
    let second : Index := ⟨.euclidean, .ofNat 1, [⟨.number 1, ⟨0.0, 0.0⟩, []⟩],
      some (.leaf [⟨0, .number 1, ⟨0.0, 0.0⟩, []⟩] (Box.ofPoint ⟨0.0, 0.0⟩))⟩
    let actions : List Action := [.arm, .pass 1000000, .begin "clients" 2000000,
      .load (.crashed "stack overflow") [], .finish, .turn false, .notice, .look, .pass 3000000,
      .begin "clients" 5000000, .call (.swap second), .load (.failed (.invalidRow 4 "no id")) [],
      .finish, .pass 1000000, .begin "clients" 6000000, .load (.loaded []) [], .turn true, .finish,
      .giveUp, .notice, .look, .call .stats]
    ∃ s, Run plan (.spawn (.start (.empty .euclidean)) {}) actions s ∧ s.phase = .stopped ∧
      s.engine.version.toNat = 2 ∧ s.engine.index.roster = [] ∧
      Conduct plan (.start (.empty .euclidean)) {} actions s := by
  intro plan second actions
  have spawned : Run plan (.spawn (.start (.empty .euclidean)) {}) []
    (.spawn (.start (.empty .euclidean)) {}) := .nil
  have first := (spawned.snoc (.arm rfl)).snoc (@Step.pass plan _ 1000000)
  have began := first.snoc (@Step.begin plan _ "clients" 2000000 rfl (by decide) (by decide))
  have lost := began.snoc (@Step.load plan _ _ (.crashed "stack overflow") [] rfl)
  have crashed := lost.snoc (.finish rfl)
  have turned := crashed.snoc (@Step.turn plan _ false rfl)
  have unturned := (turned.snoc (.wake rfl rfl)).snoc (.stay rfl rfl)
  have next := unturned.snoc (@Step.pass plan _ 3000000)
  have began := next.snoc (@Step.begin plan _ "clients" 5000000 rfl (by decide) (by decide))
  have swapped := began.snoc (@Step.call plan _ (.swap second))
  have refused := swapped.snoc (@Step.load plan _ _ (.failed (.invalidRow 4 "no id")) [] rfl)
  have failed := refused.snoc (.finish rfl)
  have last := failed.snoc (@Step.pass plan _ 1000000)
  have began := last.snoc (@Step.begin plan _ "clients" 6000000 rfl (by decide) (by decide))
  have loaded := began.snoc (@Step.load plan _ _ (.loaded []) [] rfl)
  have published := (loaded.snoc (@Step.turn plan _ true rfl)).snoc (.finish rfl)
  have ended := ((published.snoc (.giveUp rfl)).snoc (.wake rfl rfl)).snoc (.stop rfl rfl)
  have run := ended.snoc (@Step.call plan _ .stats)
  exact ⟨_, run, rfl, rfl, rfl, run_conduct run⟩

end

end FleetMatch
