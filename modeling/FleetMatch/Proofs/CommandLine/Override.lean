import FleetMatch.CommandLine.Program
import Mathlib.Control.Monad.Basic

/-!
# What flags make of the settings below them

The settings below the command line come from the defaults, a file and the environment.  They are
checked by themselves before the flags are put over them.  So a value that a flag replaces is gone from
the settings that the program runs with, but the first check has seen it.

* `Arguments.Agree`: two settings differ in nothing but what the flags set; `agree_iff_applyTo_eq` —
  these are the settings that the flags make equal.
* `Arguments.check`, `check_applyTo` — over settings that are sound by themselves, the second check is a
  check of the flags.
* `Program.Decided`, `effective_decided` — how a start goes, over all settings below.
* `Program.Overridden`, `effective_overridden` — how two starts with the same flags go, over settings
  that agree.
* `zero_not_overridden` — a flag does not save settings that are refused by themselves.
-/

set_option autoImplicit false

namespace FleetMatch

/-! ## Settings that differ in what the flags set -/

namespace Arguments

/-- Two settings differ in nothing but what the arguments set. -/
structure Agree (a : Arguments) (s s' : Settings) : Prop where
  clientsPath : a.clients = none → s.clientsPath = s'.clientsPath
  delimiter : s.delimiter = s'.delimiter
  hasHeader : s.hasHeader = s'.hasHeader
  k : a.k = none → s.k = s'.k
  metric : a.metric = none → s.metric = s'.metric
  leafCapacity : a.leafCapacity = none → s.leafCapacity = s'.leafCapacity
  reloadSecs : a.reloadSecs = none → s.reloadSecs = s'.reloadSecs
  /-- Asking for more to be logged sets the level, and nothing else about logging. -/
  level : a.verbose = false → s.logging.level = s'.logging.level
  folder : s.logging.folder = s'.logging.folder
  console : s.logging.console = s'.logging.console
  file : s.logging.file = s'.logging.file

theorem getD_eq_iff {α : Type} (given : Option α) (x y : α) :
    given.getD x = given.getD y ↔ (given = none → x = y) := by
  cases given <;> simp

theorem orElse_eq_iff {α : Type} (given x y : Option α) :
    (given <|> x) = (given <|> y) ↔ (given = none → x = y) := by
  cases given <;> simp

theorem raised_eq_iff (verbose : Bool) (o o' : LoggingOptions) :
    (if verbose then { o with level := "debug" } else o) =
        (if verbose then { o' with level := "debug" } else o') ↔
      (verbose = false → o.level = o'.level) ∧ o.folder = o'.folder ∧ o.console = o'.console ∧
        o.file = o'.file := by
  cases verbose <;> cases o <;> cases o' <;> simp

/-- **Settings agree if and only if the arguments make them equal.** -/
theorem agree_iff_applyTo_eq (a : Arguments) (s s' : Settings) :
    a.Agree s s' ↔ a.applyTo s = a.applyTo s' := by
  simp only [applyTo, Settings.mk.injEq, getD_eq_iff, orElse_eq_iff, raised_eq_iff]
  constructor
  · intro h
    exact ⟨h.clientsPath, h.delimiter, h.hasHeader, h.k, h.metric, h.leafCapacity, h.reloadSecs,
      h.level, h.folder, h.console, h.file⟩
  · rintro ⟨clientsPath, delimiter, hasHeader, k, metric, leafCapacity, reloadSecs, level, folder,
      console, file⟩
    exact ⟨clientsPath, delimiter, hasHeader, k, metric, leafCapacity, reloadSecs, level, folder,
      console, file⟩

end Arguments

/-! ## The second check -/

namespace LoggingOptions

variable {o : LoggingOptions}

theorem check_eq_ok_iff : o.check = .ok () ↔
    ((Text.trimmed o.level).isEmpty = false ∧ (isDirective (Text.trimmed o.level) ||
      levels.contains (Text.lowered (Text.trimmed o.level))) = true) ∧
    (o.file.enabled && Text.isAllBlank o.file.filename.toList) = false := by
  simp only [check]
  generalize (Text.trimmed o.level).isEmpty = empty
  generalize isDirective (Text.trimmed o.level) = directive
  generalize levels.contains (Text.lowered (Text.trimmed o.level)) = known
  generalize (o.file.enabled && Text.isAllBlank o.file.filename.toList) = unnamed
  cases empty <;> cases directive <;> cases known <;> cases unnamed <;> simp

/-- A level that is asked for by name is sound, whatever level it replaces. -/
theorem check_raised (sound : o.check = .ok ()) :
    ({ o with level := "debug" } : LoggingOptions).check = .ok () := by
  rw [check_eq_ok_iff] at sound ⊢
  have level : (Text.trimmed "debug").isEmpty = false ∧ (isDirective (Text.trimmed "debug") ||
      levels.contains (Text.lowered (Text.trimmed "debug"))) = true := by decide +kernel
  exact ⟨level, sound.2⟩

end LoggingOptions

namespace Settings

variable {s : Settings}

theorem check_eq_ok_iff : s.check = .ok () ↔
    (∃ c, s.delimiterChar = .ok c) ∧ s.k ≠ 0 ∧ s.leafCapacity ≠ 0 ∧ s.logging.check = .ok () := by
  unfold check
  cases s.delimiterChar with
  | error e => simp
  | ok c =>
    by_cases k : s.k = 0
    · simp [k]
    · by_cases leaf : s.leafCapacity = 0
      · simp [k, leaf]
      · cases s.logging.check <;> simp [k, leaf]

/-- Settings without a fault but perhaps a zero. -/
theorem check_of_sound {c : Char} (delimiter : s.delimiterChar = .ok c)
    (logging : s.logging.check = .ok ()) : s.check =
      if s.k = 0 then .error (.invalid "k must be at least 1")
      else if s.leafCapacity = 0 then .error (.invalid "leaf_capacity must be at least 1")
      else .ok () := by
  simp only [check, delimiter, logging]

end Settings

namespace Arguments

variable (a : Arguments) {s : Settings}

/-- What is wrong with the arguments by themselves, if anything is: a number may not be zero. -/
def check : Except SettingsError Unit :=
  if a.k = some 0 then .error (.invalid "k must be at least 1")
  else if a.leafCapacity = some 0 then .error (.invalid "leaf_capacity must be at least 1")
  else .ok ()

theorem getD_eq_zero_iff {below : Nat} (given : Option Nat) (sound : below ≠ 0) :
    given.getD below = 0 ↔ given = some 0 := by
  cases given <;> simp [sound]

/-- **Over sound settings, the arguments alone decide the second check.** -/
theorem check_applyTo (sound : s.check = .ok ()) : (a.applyTo s).check = a.check := by
  obtain ⟨⟨c, delimiter⟩, k, leafCapacity, logging⟩ := Settings.check_eq_ok_iff.1 sound
  have same : (a.applyTo s).delimiterChar = .ok c := delimiter
  have raised : (a.applyTo s).logging.check = .ok () := by
    show (if a.verbose then { s.logging with level := "debug" } else s.logging).check = .ok ()
    cases a.verbose with
    | false => exact logging
    | true => exact LoggingOptions.check_raised logging
  rw [Settings.check_of_sound same raised, check]
  simp only [applyTo, getD_eq_zero_iff a.k k, getD_eq_zero_iff a.leafCapacity leafCapacity]

end Arguments

/-! ## Starts -/

namespace Program

/-- How a start goes, over settings below the command line. -/
structure Decided (a : Arguments) (below : Settings) (start : Except Refusal Settings) : Prop where
  /-- Settings that are refused by themselves refuse the start with their own error, whatever the flags
  are. -/
  below_iff : ∀ e, start = .error (.below e) ↔ below.check = .error e
  /-- After that only the final settings count. -/
  final_iff : ∀ e, start = .error (.final e) ↔
    below.check = .ok () ∧ (a.applyTo below).check = .error e
  accepted_iff : ∀ t, start = .ok t ↔
    below.check = .ok () ∧ (a.applyTo below).check = .ok () ∧ t = a.applyTo below
  /-- Over settings that are sound by themselves, only the flags can be at fault. -/
  flags : below.check = .ok () → (a.applyTo below).check = a.check

/-- How two starts with the same flags go, over settings that agree but for what the flags set. -/
structure Overridden (a : Arguments) (s s' : Settings) (start start' : Except Refusal Settings) :
    Prop where
  decided : Decided a s start
  decided' : Decided a s' start'
  /-- The final settings are the same. -/
  same : a.applyTo s = a.applyTo s'
  /-- The starts go alike, with the same error or with the same settings, if and only if the settings
  below are judged alike by themselves. -/
  alike_iff : start = start' ↔ s.check = s'.check
  /-- No check looks at the clients, the metric or the reloads. -/
  unchecked : a.k = none → a.leafCapacity = none → a.verbose = false → start = start'

variable {contents contents' : Contents} {env env' : Environment} {a : Arguments} {s s' : Settings}
  {further further' : List Layer.FileFormat}

/-- A start ends at the first check, at the second one, or not at all. -/
theorem effective_cases (below : Settings.gather contents a.config env further = .ok s) :
    (∃ e, s.check = .error e ∧ effective contents env a further = .error (.below e)) ∨
      (∃ e, s.check = .ok () ∧ (a.applyTo s).check = .error e ∧
        effective contents env a further = .error (.final e)) ∨
      (s.check = .ok () ∧ (a.applyTo s).check = .ok () ∧
        effective contents env a further = .ok (a.applyTo s)) := by
  cases first : s.check with
  | error e => exact .inl ⟨e, rfl, by simp only [effective, Settings.load, below, first]⟩
  | ok _ =>
    cases second : (a.applyTo s).check with
    | error e =>
      exact .inr (.inl ⟨e, rfl, rfl, by simp only [effective, Settings.load, below, first, second]⟩)
    | ok _ =>
      exact .inr (.inr ⟨rfl, rfl, by simp only [effective, Settings.load, below, first, second]⟩)

/-- **How a start goes**, for all flags and all settings below them. -/
theorem effective_decided (below : Settings.gather contents a.config env further = .ok s) :
    Decided a s (effective contents env a further) := by
  rcases effective_cases below with ⟨e, first, start⟩ | ⟨e, first, second, start⟩ |
    ⟨first, second, start⟩
  · refine ⟨?_, ?_, ?_, a.check_applyTo⟩ <;> simp [first, start]
  · refine ⟨?_, ?_, ?_, a.check_applyTo⟩ <;> simp [first, second, start]
  · refine ⟨?_, ?_, ?_, a.check_applyTo⟩ <;> simp [first, second, start, eq_comm]

/-! ## Two starts -/

variable {start start' : Except Refusal Settings}

/-- Settings that are judged alike, and that the flags make equal, start alike. -/
theorem Decided.alike (h : Decided a s start) (h' : Decided a s' start')
    (same : a.applyTo s = a.applyTo s') (judged : s.check = s'.check) : start = start' := by
  symm
  match start, h with
  | .error (.below e), h =>
    have first := (h.below_iff e).1 rfl
    exact (h'.below_iff e).2 (judged ▸ first)
  | .error (.final e), h =>
    obtain ⟨first, second⟩ := (h.final_iff e).1 rfl
    exact (h'.final_iff e).2 ⟨judged ▸ first, same ▸ second⟩
  | .ok t, h =>
    obtain ⟨first, second, final⟩ := (h.accepted_iff t).1 rfl
    exact (h'.accepted_iff t).2 ⟨judged ▸ first, same ▸ second, final.trans same⟩

/-- From the outcome of a start it can be told how the settings below are judged by themselves. -/
theorem Decided.judged (h : Decided a s start) (h' : Decided a s' start) : s.check = s'.check := by
  cases first : s.check with
  | error e => exact ((h'.below_iff e).1 ((h.below_iff e).2 first)).symm
  | ok _ =>
    cases first' : s'.check with
    | ok _ => rfl
    | error e =>
      have refused := (h.below_iff e).1 ((h'.below_iff e).2 first')
      rw [first] at refused
      cases refused

/-- Without a flag that is checked, settings that agree are judged alike. -/
theorem check_eq_of_agree (agree : a.Agree s s') (k : a.k = none) (leafCapacity : a.leafCapacity = none)
    (quiet : a.verbose = false) : s.check = s'.check := by
  have logging : s.logging = s'.logging := by
    rw [LoggingOptions.mk.injEq]
    exact ⟨agree.level quiet, agree.folder, agree.console, agree.file⟩
  simp only [Settings.check, Settings.delimiterChar, agree.delimiter, agree.k k,
    agree.leafCapacity leafCapacity, logging]

/-- **How two starts with the same flags go**, over settings that differ only in what the flags set.
The files, their formats, the name of the file of the settings and the environment are free. -/
theorem effective_overridden {config' : Option String}
    (below : Settings.gather contents a.config env further = .ok s)
    (below' : Settings.gather contents' config' env' further' = .ok s') (agree : a.Agree s s') :
    Overridden a s s' (effective contents env a further)
      (effective contents' env' { a with config := config' } further') := by
  have decided : Decided a s (effective contents env a further) := effective_decided below
  have decided' : Decided a s' (effective contents' env' { a with config := config' } further') := by
    -- The name of the file is no setting, so the flags are the same ones.
    have other := effective_decided (a := { a with config := config' }) below'
    exact ⟨other.below_iff, other.final_iff, other.accepted_iff, other.flags⟩
  have same : a.applyTo s = a.applyTo s' := (a.agree_iff_applyTo_eq s s').1 agree
  constructor
  case decided => exact decided
  case decided' => exact decided'
  case same => exact same
  case alike_iff =>
    refine ⟨fun alike => ?_, decided.alike decided' same⟩
    rw [← alike] at decided'
    exact decided.judged decided'
  case unchecked =>
    intro k leafCapacity quiet
    exact decided.alike decided' same (check_eq_of_agree agree k leafCapacity quiet)

/-- Flags that ask for five neighbours and for more to be logged. -/
def louder : Arguments := { clients := some "c.csv", k := some 5, verbose := true }

/-- Two environments whose settings are sound by themselves.  The flags set all that they differ in. -/
theorem louder_overridden : ∃ s s',
    Settings.gather (fun _ => none) louder.config
        [("PROXIMA_K", "3"), ("PROXIMA_LOGGING__LEVEL", "trace")] = .ok s ∧
      Settings.gather (fun _ => none) none [] = .ok s' ∧ louder.Agree s s' ∧ s ≠ s' ∧
      Overridden louder s s'
        (effective (fun _ => none) [("PROXIMA_K", "3"), ("PROXIMA_LOGGING__LEVEL", "trace")] louder)
        (effective (fun _ => none) [] { louder with config := none }) ∧
      effective (fun _ => none) [("PROXIMA_K", "3"), ("PROXIMA_LOGGING__LEVEL", "trace")] louder =
        .ok { clientsPath := some "c.csv", k := 5, logging := { level := "debug" } } := by
  have below : Settings.gather (fun _ => none) louder.config
      [("PROXIMA_K", "3"), ("PROXIMA_LOGGING__LEVEL", "trace")] =
        .ok { k := 3, logging := { level := "trace" } } := by decide +kernel
  have below' : Settings.gather (fun _ => none) none [] = .ok {} := by decide +kernel
  have agree : louder.Agree { k := 3, logging := { level := "trace" } } {} :=
    (louder.agree_iff_applyTo_eq _ _).2 rfl
  have overridden := effective_overridden below below' agree
  exact ⟨_, _, below, below', agree, by decide, overridden,
    (overridden.decided.accepted_iff _).2 ⟨rfl, rfl, rfl⟩⟩

/-- **A flag does not save settings that are refused by themselves**: if the environment asks for no
neighbours, the start is refused, although a flag asks for five. -/
theorem zero_not_overridden :
    ¬ ∀ (contents contents' : Contents) (env env' : Environment) (a : Arguments) (s s' : Settings),
      Settings.gather contents a.config env = .ok s → Settings.gather contents' a.config env' = .ok s' →
        a.Agree s s' → effective contents env a = effective contents' env' a := by
  intro override
  have below : Settings.gather (fun _ => none) louder.config [("PROXIMA_K", "0")] = .ok { k := 0 } := by
    decide +kernel
  have below' : Settings.gather (fun _ => none) louder.config [] = .ok {} := by decide +kernel
  have agree : louder.Agree { k := 0 } {} := (louder.agree_iff_applyTo_eq _ _).2 rfl
  have decided := effective_decided below
  rw [override _ _ _ _ louder _ _ below below' agree] at decided
  have judged := decided.judged (effective_decided below')
  exact absurd judged (by decide +kernel)

end Program

end FleetMatch
