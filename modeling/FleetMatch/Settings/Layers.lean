import FleetMatch.Folder.Path
import FleetMatch.Json.Value
import FleetMatch.Settings.Basic
import FleetMatch.Toml.Document

/-!
# Where settings come from

Settings are put together from three layers: the defaults, a file if one is named, and the
environment.  A later layer wins over an earlier one.

* `Layer.file?`: the layer of a file, whose format is told by the end of its name.  TOML and JSON are
  read here; readers for further formats can be given to everything that reads such a file.
* `Layer.environment`: the layer of the environment variables that are meant for this program.
* `Settings.ofSetting?`: the settings that a value stands for.
* `Settings.load`: all of it.
-/

namespace FleetMatch

/-- The contents of the file at a path, if there is one. -/
abbrev Contents := String → Option (List UInt8)

/-- The variables of the environment by their names. -/
abbrev Environment := List (String × String)

/-- Values under names or paths. -/
abbrev Layer := List (String × Setting)

namespace Layer

/-- What holds if nothing else is said. -/
def defaults : Layer :=
  [("delimiter", .text ","), ("has_header", .flag false), ("k", .int 1),
    ("metric", .text "euclidean"), ("leaf_capacity", .int 16), ("reload_secs", .int 0)]

/-! ## Files -/

mutual

/-- A JSON value as a setting.  Integers beyond 64 bits are rounded. -/
def ofJson : Json.Value → Setting
  | .null => .nothing
  | .bool b => .flag b
  | .number (.int n) =>
    if Numeral.fits64 n then .int n
    else .float (Json.Number.int n).toFloat
  | .number (.float x) => .float x
  | .string s => .text s
  | .array items => .list (ofJsonItems items)
  | .object members => .table (ofJsonMembers members)

/-- JSON values as settings. -/
def ofJsonItems : List Json.Value → List Setting
  | [] => []
  | v :: rest => ofJson v :: ofJsonItems rest

/-- The members of an object as settings; of members with one name the last one counts. -/
def ofJsonMembers : List (String × Json.Value) → List (String × Setting)
  | [] => []
  | (name, v) :: rest =>
    let more := ofJsonMembers rest
    if (more.lookup name).isSome then more else (name, ofJson v) :: more

end

/-- A format of files. -/
structure FileFormat where
  /-- How the names of files in this format end. -/
  endings : List String
  /-- The layer of a text, if the text is in this format. -/
  parse? : List Char → Option Layer

/-- Tables of values by their names. -/
def FileFormat.toml : FileFormat := ⟨["toml"], Toml.parse?⟩

/-- A JSON object. -/
def FileFormat.json : FileFormat where
  endings := ["json"]
  parse? text :=
    match Json.parseBy .stepwise text with
    | .ok (.object members) => some (ofJsonMembers members)
    | _ => none

/-- The formats by the ends of file names.  The program is built with readers for `further` formats, such
as YAML, which come from elsewhere. -/
def extensions (further : List FileFormat) : List (String × FileFormat) :=
  (.toml :: .json :: further).flatMap fun format => format.endings.map fun ending => (ending, format)

/-- The file that a path means, with its format: the file itself, or one whose name goes on with the
end of a known format. -/
def find? (contents : Contents) (path : String) (further : List FileFormat) :
    Option (FileFormat × List UInt8) :=
  match contents path with
  | some bytes =>
    (Path.ending? path).bind fun ext =>
      ((extensions further).lookup ext).map fun format => (format, bytes)
  | none =>
    (extensions further).findSome? fun (ext, format) =>
      (Path.withEnding ext path).bind fun longer =>
        (contents longer).map fun bytes => (format, bytes)

/-- The text of a file.  A byte order mark at its start does not count, and what is not text is
replaced. -/
def decode (bytes : List UInt8) : List Char :=
  match bytes with
  | 0xEF :: 0xBB :: 0xBF :: rest => Text.Utf8.decodeLossy rest
  | _ => Text.Utf8.decodeLossy bytes

/-- The layer of the file at a path. -/
def file? (contents : Contents) (path : String) (further : List FileFormat) : Option Layer :=
  (find? contents path further).bind fun (format, bytes) => format.parse? (decode bytes)

/-! ## The environment -/

/-- How the names of variables for this program start, in small letters. -/
def mark : List Char := "proxima_".toList

/-- Points in the place of double underscores. -/
def dotted : List Char → List Char
  | '_' :: '_' :: rest => '.' :: dotted rest
  | c :: rest => c :: dotted rest
  | [] => []

/-- The key of a variable for this program.  Letter case does not count, and a double underscore
leads into a table. -/
def key? (name : String) : Option String :=
  let cs := (Text.allSmall name).toList
  if mark.isPrefixOf cs then some (String.ofList (dotted (cs.drop mark.length))) else none

/-- The value of a variable: a truth value, an integer or a number if it reads as one, and text
otherwise. -/
def value (raw : String) : Setting :=
  let word := Text.lowered raw
  if word = "true" then .flag true
  else if word = "false" then .flag false
  else
    match Numeral.int64? raw.toList with
    | some n => .int n.toInt
    | none =>
      match Decimal.Literal.read raw.toList with
      | .ok x => .float x
      | .error _ => .text raw

/-- The layer of the environment. -/
def environment (env : Environment) : Layer :=
  env.filterMap fun (name, raw) => (key? name).map fun key => (key, value raw)

end Layer

/-! ## Settings from a value -/

namespace ConsoleOptions

/-- The options that a value stands for. -/
def ofSetting? (v : Setting) : Option ConsoleOptions :=
  let given : ConsoleOptions := {}
  if v.isRecord then do
    let enabled ← v.partOr? 0 "enabled" Setting.flag? given.enabled
    let format ← v.partOr? 1 "format" (Setting.choice? LogFormat.options) given.format
    let ansi ← v.partOr? 2 "with_ansi" Setting.flag? given.ansi
    let target ← v.partOr? 3 "with_target" Setting.flag? given.target
    let threadIds ← v.partOr? 4 "with_thread_ids" Setting.flag? given.threadIds
    let lineNumbers ← v.partOr? 5 "with_line_numbers" Setting.flag? given.lineNumbers
    return ⟨enabled, format, ansi, target, threadIds, lineNumbers⟩
  else none

end ConsoleOptions

namespace FileOptions

/-- The options that a value stands for. -/
def ofSetting? (v : Setting) : Option FileOptions :=
  let given : FileOptions := {}
  if v.isRecord then do
    let enabled ← v.partOr? 0 "enabled" Setting.flag? given.enabled
    let format ← v.partOr? 1 "format" (Setting.choice? LogFormat.options) given.format
    let filename ← v.partOr? 2 "filename" Setting.text? given.filename
    return ⟨enabled, format, filename⟩
  else none

end FileOptions

namespace LoggingOptions

/-- The options that a value stands for. -/
def ofSetting? (v : Setting) : Option LoggingOptions :=
  let given : LoggingOptions := {}
  if v.isRecord then do
    let level ← v.partOr? 0 "level" Setting.text? given.level
    let folder ← v.partOr? 1 "log_dir" Setting.text? given.folder
    let console ← v.partOr? 2 "console" ConsoleOptions.ofSetting? given.console
    let file ← v.partOr? 3 "file" FileOptions.ofSetting? given.file
    return ⟨level, folder, console, file⟩
  else none

end LoggingOptions

namespace Settings

/-- A path or nothing. -/
def optionalText? : Setting → Option (Option String)
  | .nothing => some none
  | v => v.text?.map some

/-- The settings that a table of values stands for. -/
def ofSetting? (v : Setting) : Option Settings := do
  let required {α : Type} (name : String) (read? : Setting → Option α) : Option α :=
    (v.members.lookup name).bind read?
  let optional {α : Type} (name : String) (read? : Setting → Option α) (default : α) : Option α :=
    match v.members.lookup name with
    | some part => read? part
    | none => some default
  let clientsPath ← optional "clients_path" optionalText? none
  let delimiter ← required "delimiter" Setting.text?
  let hasHeader ← required "has_header" Setting.flag?
  let k ← required "k" Setting.count?
  let metric ← required "metric" (Setting.choice? MetricKind.options)
  let leafCapacity ← required "leaf_capacity" Setting.count?
  let reloadSecs ← required "reload_secs" Setting.count?
  let logging ← optional "logging" LoggingOptions.ofSetting? {}
  return ⟨clientsPath, delimiter, hasHeader, k, metric, leafCapacity, reloadSecs, logging⟩

/-- The value that the layers make up together. -/
def combined (layers : List Layer) : Setting := layers.foldl Setting.overlay (.table [])

/-- The settings from all layers, without a check. -/
def gather (contents : Contents) (file? : Option String) (env : Environment)
    (further : List Layer.FileFormat := []) : Except SettingsError Settings :=
  let fromLayers (layers : List Layer) : Except SettingsError Settings :=
    match ofSetting? (combined layers) with
    | some s => .ok s
    | none => .error (.unreadable "a value is missing or of the wrong kind")
  match file? with
  | none => fromLayers [Layer.defaults, Layer.environment env]
  | some path =>
    match Layer.file? contents path further with
    | none => .error (.unreadable ("the file '" ++ path ++ "' cannot be read"))
    | some layer => fromLayers [Layer.defaults, layer, Layer.environment env]

/-- The settings from all layers. -/
def load (contents : Contents) (file? : Option String) (env : Environment)
    (further : List Layer.FileFormat := []) : Except SettingsError Settings :=
  match gather contents file? env further with
  | .error e => .error e
  | .ok s =>
    match s.check with
    | .error e => .error e
    | .ok () => .ok s

end Settings

end FleetMatch
