import FleetMatch.Distance.Kind
import FleetMatch.Failure
import FleetMatch.Index.Build
import FleetMatch.Logging.Options
import FleetMatch.Roster.Rows

/-!
# Settings

What the program is told to do: where the clients are, how many of them an update asks for, by which
metric, and what is logged.

* `Settings.check`: refuses settings that cannot be meant, with the first reason.
* `Settings.indexConfig`, `Settings.rosterFile?`: what the settings mean for the index and for the
  file of the clients.
* `Settings.reader`, `Settings.toJson`: settings as JSON.
-/

namespace FleetMatch

/-- What the program is told to do. -/
structure Settings where
  /-- The file of the clients. -/
  clientsPath : Option String := none
  /-- What stands between the columns of that file. -/
  delimiter : String := ","
  /-- The file starts with a header. -/
  hasHeader : Bool := false
  /-- How many clients an update asks for. -/
  k : Nat := 1
  metric : MetricKind := .euclidean
  leafCapacity : Nat := 16
  /-- The seconds between two reloads; zero for none. -/
  reloadSecs : Nat := 0
  logging : LoggingOptions := {}
  deriving DecidableEq, Repr

/-- Why settings are refused. -/
inductive SettingsError where
  /-- A layer of the settings cannot be read, or has a value of the wrong kind. -/
  | unreadable (reason : String)
  /-- A value cannot be meant. -/
  | invalid (reason : String)
  deriving DecidableEq, Repr

namespace SettingsError

/-- The error in words. -/
def message : SettingsError → String
  | .unreadable reason => "Failed to load settings: " ++ reason
  | .invalid reason => "Invalid settings: " ++ reason

/-- The error with all its fields. -/
def detail : SettingsError → String
  | .unreadable reason => "Source(" ++ Text.quoted reason ++ ")"
  | .invalid reason => "Invalid(" ++ Text.quoted reason ++ ")"

/-- What is told about the error. -/
def failure (e : SettingsError) : Failure where
  kind := "SettingsError"
  message := e.message
  status := .invalidConfig
  detail := some e.detail
  marks := []
  cause :=
    match e with
    | .unreadable reason => some reason
    | .invalid _ => none

end SettingsError

namespace Settings

/-- The single character between columns. -/
def delimiterChar (s : Settings) : Except SettingsError Char :=
  match s.delimiter.toList with
  | [c] => .ok c
  | _ =>
    .error (.invalid ("delimiter must be a single character, got '" ++ s.delimiter ++ "'"))

/-- Refuses settings that cannot be meant. -/
def check (s : Settings) : Except SettingsError Unit :=
  match s.delimiterChar with
  | .error e => .error e
  | .ok _ =>
    if s.k = 0 then .error (.invalid "k must be at least 1")
    else if s.leafCapacity = 0 then .error (.invalid "leaf_capacity must be at least 1")
    else
      match s.logging.check with
      | .error reason => .error (.invalid reason)
      | .ok () => .ok ()

/-- What the index is built with. -/
def indexConfig (s : Settings) : IndexConfig :=
  ⟨s.metric.metric, LeafCapacity.ofNat s.leafCapacity⟩

/-- The file of the clients with its format, if there is one. -/
def rosterFile? (s : Settings) : Except SettingsError (Option (String × RowFormat)) :=
  match s.delimiterChar with
  | .error e => .error e
  | .ok c => .ok (s.clientsPath.map fun path => (path, ⟨c, s.hasHeader⟩))

/-- The fields of the settings. -/
def fields : List (Json.Field Settings) :=
  [.orAbsent "clients_path" (fun _ => Json.optional (Json.text "path string"))
      fun s v => { s with clientsPath := v },
    .required "delimiter" (fun _ => Json.text "a string") fun s v => { s with delimiter := v },
    .required "has_header" (fun _ => Json.boolean) fun s v => { s with hasHeader := v },
    .required "k" (fun _ => Json.natural "usize") fun s v => { s with k := v },
    .required "metric" (Json.choice MetricKind.options) fun s v => { s with metric := v },
    .required "leaf_capacity" (fun _ => Json.natural "usize")
      fun s v => { s with leafCapacity := v },
    .required "reload_secs" (fun _ => Json.natural "u64") fun s v => { s with reloadSecs := v },
    .orDefault "logging" LoggingOptions.reader fun s v => { s with logging := v }]

/-- Reads settings. -/
def reader (depth : Nat) : Json.Reader Settings := Json.record "Settings" fields {} depth

/-- The settings as a JSON value. -/
def toJson (s : Settings) : Json.Value :=
  .object
    [("clients_path", (s.clientsPath.map Json.Value.string).getD .null),
      ("delimiter", .string s.delimiter), ("has_header", .bool s.hasHeader), ("k", .ofInt s.k),
      ("metric", .string s.metric.name), ("leaf_capacity", .ofInt s.leafCapacity),
      ("reload_secs", .ofInt s.reloadSecs), ("logging", s.logging.toJson)]

end Settings

end FleetMatch
