import FleetMatch.Json.Decoder
import FleetMatch.Json.Printer
import FleetMatch.Status
import FleetMatch.Text.Blank
import FleetMatch.Text.Case

/-!
# Logging options

What is logged, and where to.  A level is one of six words or a whole filter directive, which is
known by an equals sign or a comma.

* `LoggingOptions.directive`: the filter directive of the options.
* `LoggingOptions.check`: refuses options that cannot be meant.
* `LoggingOptions.reader`: reads options from JSON; what is not written keeps its default.
-/

namespace FleetMatch

/-- The layout of log lines. -/
inductive LogFormat where
  | pretty
  | compact
  | json
  deriving DecidableEq, Repr

namespace LogFormat

/-- The word for a layout. -/
def name : LogFormat → String
  | .pretty => "pretty"
  | .compact => "compact"
  | .json => "json"

/-- The layouts by their words. -/
def options : List (String × LogFormat) :=
  [("pretty", .pretty), ("compact", .compact), ("json", .json)]

/-- The layout that a word of any letter case asks for, or what is wrong with the word. -/
def parse (raw : String) : Except String LogFormat :=
  let word := Text.lowered raw
  match options.find? fun option => option.1 == word with
  | some option => .ok option.2
  | none => .error ("unknown log format '" ++ word ++ "'")

/-- Reads a layout. -/
def reader (depth : Nat) : Json.Reader LogFormat := Json.choice options depth

end LogFormat

/-- What is written to the console. -/
structure ConsoleOptions where
  enabled : Bool := true
  format : LogFormat := .compact
  ansi : Bool := true
  target : Bool := true
  threadIds : Bool := false
  lineNumbers : Bool := false
  deriving DecidableEq, Repr

/-- What is written to log files. -/
structure FileOptions where
  enabled : Bool := false
  format : LogFormat := .json
  /-- The start of the names of the files. -/
  filename : String := "proxima.log"
  deriving DecidableEq, Repr

/-- What is logged, and where to. -/
structure LoggingOptions where
  level : String := "info"
  /-- The folder of the log files. -/
  folder : String := "logs"
  console : ConsoleOptions := {}
  file : FileOptions := {}
  deriving DecidableEq, Repr

namespace ConsoleOptions

/-- The fields of the options. -/
def fields : List (Json.Field ConsoleOptions) :=
  [.orDefault "enabled" (fun _ => Json.boolean) fun o v => { o with enabled := v },
    .orDefault "format" LogFormat.reader fun o v => { o with format := v },
    .orDefault "with_ansi" (fun _ => Json.boolean) fun o v => { o with ansi := v },
    .orDefault "with_target" (fun _ => Json.boolean) fun o v => { o with target := v },
    .orDefault "with_thread_ids" (fun _ => Json.boolean) fun o v => { o with threadIds := v },
    .orDefault "with_line_numbers" (fun _ => Json.boolean) fun o v => { o with lineNumbers := v }]

/-- Reads the options. -/
def reader (depth : Nat) : Json.Reader ConsoleOptions :=
  Json.record "ConsoleConfig" fields {} depth

/-- The options as a JSON value. -/
def toJson (o : ConsoleOptions) : Json.Value :=
  .object
    [("enabled", .bool o.enabled), ("format", .string o.format.name), ("with_ansi", .bool o.ansi),
      ("with_target", .bool o.target), ("with_thread_ids", .bool o.threadIds),
      ("with_line_numbers", .bool o.lineNumbers)]

end ConsoleOptions

namespace FileOptions

/-- The fields of the options. -/
def fields : List (Json.Field FileOptions) :=
  [.orDefault "enabled" (fun _ => Json.boolean) fun o v => { o with enabled := v },
    .orDefault "format" LogFormat.reader fun o v => { o with format := v },
    .orDefault "filename" (fun _ => Json.text "a string") fun o v => { o with filename := v }]

/-- Reads the options. -/
def reader (depth : Nat) : Json.Reader FileOptions := Json.record "FileConfig" fields {} depth

/-- The options as a JSON value. -/
def toJson (o : FileOptions) : Json.Value :=
  .object
    [("enabled", .bool o.enabled), ("format", .string o.format.name),
      ("filename", .string o.filename)]

end FileOptions

namespace LoggingOptions

/-- The level is a filter directive. -/
def isDirective (level : String) : Bool := level.toList.any fun c => c == '=' || c == ','

/-- The words that are levels. -/
def levels : List String := ["trace", "debug", "info", "warn", "error", "off"]

/-- The filter directive of the options.  A mere level is meant for this program; what others have
to say is logged from warnings on. -/
def directive (o : LoggingOptions) : String :=
  let level := Text.trimmed o.level
  if isDirective level then level
  else "warn,proxima=" ++ level ++ ",proxima_error=" ++ level

/-- Messages of a severity are written.  A filter directive is taken for the level `info`. -/
def shows (o : LoggingOptions) (severity : Severity) : Bool :=
  match levels.findIdx? (· == Text.lowered (Text.trimmed o.level)) with
  | some quietest => quietest ≤ severity.rank
  | none => 2 ≤ severity.rank

/-- Refuses options that cannot be meant, with the reason. -/
def check (o : LoggingOptions) : Except String Unit :=
  let level := Text.trimmed o.level
  if level.isEmpty then .error "log level must not be empty"
  else if !isDirective level && !levels.contains (Text.lowered level) then
    .error ("unknown log level '" ++ level ++ "'")
  else if o.file.enabled && Text.isAllBlank o.file.filename.toList then
    .error "log file name must not be empty"
  else .ok ()

/-- The fields of the options. -/
def fields : List (Json.Field LoggingOptions) :=
  [.orDefault "level" (fun _ => Json.text "a string") fun o v => { o with level := v },
    .orDefault "log_dir" (fun _ => Json.text "path string") fun o v => { o with folder := v },
    .orDefault "console" ConsoleOptions.reader fun o v => { o with console := v },
    .orDefault "file" FileOptions.reader fun o v => { o with file := v }]

/-- Reads the options. -/
def reader (depth : Nat) : Json.Reader LoggingOptions :=
  Json.record "LoggingConfig" fields {} depth

/-- The options as a JSON value. -/
def toJson (o : LoggingOptions) : Json.Value :=
  .object
    [("level", .string o.level), ("log_dir", .string o.folder), ("console", o.console.toJson),
      ("file", o.file.toJson)]

end LoggingOptions

end FleetMatch
