import FleetMatch.Engine.Reload
import FleetMatch.Proofs.Engine.History
import FleetMatch.Proofs.Index.Representation

/-!
# Reloads are all or nothing

A reload has one step that others can see, and this step comes last.  Whatever goes wrong before it
leaves the engine exactly as the source has left it, and so it does not matter what the source has done
to the engine while it was loading.

* `Engine.Published`: the index of a roster has become the current one, and nothing else has changed.
* `AllOrNothing`: what holds of a reload, told from what the source gave and the engine it left behind.
* `publish_of_check`, `publish_of_error` — what becomes of a roster.
* `settle_allOrNothing` — what becomes of anything that a source gives.
* `reload_allOrNothing` — both kinds of reload are all or nothing, for every source.
-/

set_option autoImplicit false

namespace FleetMatch

/-- The index of a roster has become the current one under the next version, and this one swap has been
counted.  Nothing else has changed. -/
structure Engine.Published (config : IndexConfig) (roster : Roster) (before after : Engine) : Prop where
  version : after.version = before.version + 1
  built : Index.build? config roster = .ok after.index
  holds : after.index.roster = roster
  swaps : after.counters.swaps = before.counters.swaps + 1
  emptySwaps : after.counters.emptySwaps =
    before.counters.emptySwaps + if roster = [] then 1 else 0
  queries : after.counters.queries = before.counters.queries
  rejected : after.counters.rejected = before.counters.rejected

/-- What holds of a reload whose source has left `loading` behind.  `crash` is the outcome where the
source has crashed. -/
structure AllOrNothing (config : IndexConfig) (crash : String → ReloadOutcome)
    (loading : Effect Loading) (done : Effect ReloadOutcome) : Prop where
  /-- A version is told exactly for a roster that passes the check, and it is the next one. -/
  published_iff : ∀ version, done.answer = .published version ↔
    version = loading.engine.version + 1 ∧
      ∃ roster, loading.answer = .loaded roster ∧ roster.check = .ok ()
  published : ∀ roster, loading.answer = .loaded roster → roster.check = .ok () →
    loading.engine.Published config roster done.engine
  /-- Every other outcome leaves the engine alone: the index, its version and all counters. -/
  kept : (∀ version, done.answer ≠ .published version) → done.engine = loading.engine
  /-- The error is the very error of the source, or of the check. -/
  load_iff : ∀ err, done.answer = .failed (.load err) ↔ loading.answer = .failed err
  build_iff : ∀ err, done.answer = .failed (.build err) ↔
    ∃ roster, loading.answer = .loaded roster ∧ roster.check = .error err
  crash_iff : ∀ reason, done.answer = crash reason ↔ loading.answer = .crashed reason

/-! ## What becomes of a roster -/

namespace Index

variable (config : IndexConfig) {roster : Roster}

theorem build?_of_check (accepted : roster.check = .ok ()) :
    ∃ ix, build? config roster = .ok ix ∧ ix.roster = roster := by
  refine ⟨_, buildBy?_of_check Halving.sorting config accepted, ?_⟩
  rfl

theorem build?_of_error {err : RosterError} (refused : roster.check = .error err) :
    build? config roster = .error err := by
  unfold build? buildBy?
  rw [refused]

end Index

namespace Engine

variable (e : Engine) (source : String) (config : IndexConfig) {roster : Roster}

theorem publish_of_check (accepted : roster.check = .ok ()) :
    (e.publish source config roster).answer = .published (e.version + 1) ∧
      e.Published config roster (e.publish source config roster).engine := by
  obtain ⟨ix, built, holds⟩ := Index.build?_of_check config accepted
  have isEmpty : ix.isEmpty = decide (roster = []) := by
    rw [Index.isEmpty, holds]
    cases roster <;> rfl
  unfold publish
  rw [built]
  refine ⟨rfl, rfl, built, holds, rfl, ?_, rfl, rfl⟩
  show (e.counters.addSwap ix.isEmpty).emptySwaps = _
  rw [isEmpty]
  by_cases empty : roster = []
  · simp [Counters.addSwap, empty]
  · simp [Counters.addSwap, empty]

theorem publish_of_error {err : RosterError} (refused : roster.check = .error err) :
    (e.publish source config roster).answer = .failed (.build err) ∧
      (e.publish source config roster).engine = e := by
  have unbuilt := Index.build?_of_error config refused
  unfold publish
  rw [unbuilt]
  exact ⟨rfl, rfl⟩

/-! ## What becomes of what a source gives -/

/-- **What a source has given is made the current index as a whole, or nothing happens.** -/
theorem settle_allOrNothing (given : Loading) (events : List Event) :
    AllOrNothing config .crashed ⟨given, e, events⟩ (e.settle source config given) := by
  cases given with
  | crashed reason =>
    constructor <;> simp [settle]
  | failed err =>
    constructor <;> simp [settle]
  | loaded roster =>
    cases checked : roster.check with
    | error err =>
      obtain ⟨answer, engine⟩ := publish_of_error e source config checked
      constructor <;> simp [settle, answer, engine, checked]
    | ok _ =>
      obtain ⟨answer, swapped⟩ := publish_of_check e source config checked
      constructor <;> simp [settle, answer, checked, swapped, eq_comm]

end Engine

/-! ## Reloads -/

namespace AllOrNothing

variable {config : IndexConfig} {crash : String → ReloadOutcome} {loading : Effect Loading}
  {done done' : Effect ReloadOutcome}

/-- It depends only on the answer and the engine, not on what the log was told. -/
theorem congr (h : AllOrNothing config crash loading done) (answer : done'.answer = done.answer)
    (engine : done'.engine = done.engine) : AllOrNothing config crash loading done' := by
  obtain ⟨a, e, events⟩ := done
  obtain ⟨a', e', events'⟩ := done'
  cases answer
  cases engine
  exact ⟨h.published_iff, h.published, h.kept, h.load_iff, h.build_iff, h.crash_iff⟩

/-- In a task of its own a crash is a failure of the task. -/
theorem apart (h : AllOrNothing config .crashed loading done) {reason : String}
    (crashed : done.answer = .crashed reason) :
    AllOrNothing config (fun reason => .failed (.task reason)) loading
      ⟨.failed (.task reason), done.engine, done.events⟩ := by
  have given : loading.answer = .crashed reason := (h.crash_iff reason).1 crashed
  have kept : done.engine = loading.engine := h.kept (by simp [crashed])
  constructor <;> simp [given, kept]

theorem answer_of_crash_free (h : AllOrNothing config .crashed loading done)
    (sound : ∀ reason, done.answer ≠ .crashed reason) (reason : String) :
    done.answer ≠ .failed (.task reason) := by
  intro task
  cases given : loading.answer with
  | crashed reason' => exact sound reason' ((h.crash_iff reason').2 given)
  | failed err => simp [(h.load_iff err).2 given] at task
  | loaded roster =>
    cases checked : roster.check with
    | error err => simp [(h.build_iff err).2 ⟨roster, given, checked⟩] at task
    | ok _ => simp [(h.published_iff _).2 ⟨rfl, roster, given, checked⟩] at task

end AllOrNothing

namespace Engine

variable (e : Engine) (source : Source) (config : IndexConfig)

theorem reload_settles :
    AllOrNothing config .crashed (source.load e) (e.reload source config) := by
  have settled := (source.load e).engine.settle_allOrNothing source.description config
    (source.load e).answer (source.load e).events
  exact settled.congr rfl rfl

theorem reloadApart_settles : AllOrNothing config (fun reason => .failed (.task reason))
    (source.load e) (e.reloadApart source config) := by
  have settled := e.reload_settles source config
  simp only [reloadApart]
  split
  · rename_i reason crashed
    exact settled.apart crashed
  · rename_i sound
    have untasked := settled.answer_of_crash_free sound
    refine ⟨settled.published_iff, settled.published, settled.kept, settled.load_iff,
      settled.build_iff, ?_⟩
    intro reason
    refine ⟨fun task => absurd task (untasked reason), ?_⟩
    intro given
    exact absurd ((settled.crash_iff reason).2 given) (sound reason)

/-- **Reloads are all or nothing**, for every source, whatever it does to the engine while it loads: a
roster that passes the check is published as a whole, under the version after that of the engine that
the source has left behind, and anything else leaves this engine alone. -/
theorem reload_allOrNothing :
    AllOrNothing config .crashed (source.load e) (e.reload source config) ∧
      AllOrNothing config (fun reason => .failed (.task reason)) (source.load e)
        (e.reloadApart source config) := by
  constructor
  · exact e.reload_settles source config
  · exact e.reloadApart_settles source config

end Engine

end FleetMatch
