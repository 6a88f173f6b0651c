import FleetMatch.Settings.Layers
import FleetMatch.Text.Bare

/-!
# Arguments

The words of the command line.  An option takes a value, which is the rest of its word after an
equals sign or the next word; short options may share a word.  Every option and flag may come once.

* `Arguments.parse`: what the words ask for; the first word that is wrong decides, unless help has
  been asked for before it.
* `Arguments.applyTo`: settings with what the words say put over them.
* `Arguments.helpText`: the text of the help.
-/

namespace FleetMatch

/-- What the command line says about the settings. -/
structure Arguments where
  clients : Option String := none
  k : Option Nat := none
  metric : Option MetricKind := none
  leafCapacity : Option Nat := none
  reloadSecs : Option Nat := none
  /-- The file of the settings. -/
  config : Option String := none
  /-- More is logged. -/
  verbose : Bool := false
  deriving DecidableEq, Repr

/-- What the command line asks for. -/
inductive Command where
  | run (a : Arguments)
  | help
  | version
  | refused (reason : String)
  deriving DecidableEq, Repr

namespace Arguments

/-- The options that take a value. -/
inductive ValueOption where
  | clients
  | k
  | metric
  | leafCapacity
  | reloadSecs
  | config
  deriving DecidableEq, Repr

/-- A word that stands for something to do. -/
inductive Word where
  | takes (o : ValueOption)
  | verbose
  | help
  | version
  deriving DecidableEq, Repr

/-- The long words, without their two hyphens. -/
def longWords : List (String × Word) :=
  [("clients", .takes .clients), ("k", .takes .k), ("metric", .takes .metric),
    ("leaf-capacity", .takes .leafCapacity), ("reload-secs", .takes .reloadSecs),
    ("config", .takes .config), ("verbose", .verbose), ("help", .help), ("version", .version)]

/-- The short words, without their hyphen. -/
def shortWords : List (Char × Word) :=
  [('k', .takes .k), ('c', .takes .config), ('v', .verbose), ('h', .help), ('V', .version)]

/-- A value that may come once. -/
def once {α : Type} (old : Option α) (new : Except String α) : Except String (Option α) :=
  match new with
  | .error reason => .error reason
  | .ok v => if old.isSome then .error "an option is used twice" else .ok (some v)

/-- A path, which is not empty. -/
def path (value : String) : Except String String :=
  if value.isEmpty then .error "a value is empty" else .ok value

/-- A natural number of 64 bits. -/
def count (value : String) : Except String Nat :=
  match Numeral.uint64? value.toList with
  | some n => .ok n
  | none => .error ("'" ++ value ++ "' is not a number")

/-- The arguments with the value of an option. -/
def set (a : Arguments) (value : String) : ValueOption → Except String Arguments
  | .clients => (once a.clients (path value)).map fun v => { a with clients := v }
  | .k => (once a.k (count value)).map fun v => { a with k := v }
  | .metric => (once a.metric (MetricKind.parse value)).map fun v => { a with metric := v }
  | .leafCapacity =>
    (once a.leafCapacity (count value)).map fun v => { a with leafCapacity := v }
  | .reloadSecs => (once a.reloadSecs (count value)).map fun v => { a with reloadSecs := v }
  | .config => (once a.config (path value)).map fun v => { a with config := v }

/-- How a word leaves things. -/
inductive Outcome where
  | done (a : Arguments)
  /-- The next word is the value of an option. -/
  | wants (a : Arguments) (o : ValueOption)
  /-- No options follow. -/
  | escape
  | stop (c : Command)

/-- The outcome of a value. -/
def withValue (a : Arguments) (o : ValueOption) (value : String) : Outcome :=
  match a.set value o with
  | .ok a => .done a
  | .error reason => .stop (.refused reason)

/-- The outcome of asking for more to be logged. -/
def withVerbose (a : Arguments) : Outcome :=
  if a.verbose then .stop (.refused "a flag is used twice") else .done { a with verbose := true }

/-- The outcome of a word with two hyphens. -/
def long (a : Arguments) (body : List Char) : Outcome :=
  let name := String.ofList (body.takeWhile (· != '='))
  let value :=
    match body.dropWhile (· != '=') with
    | [] => none
    | _ :: rest => some (String.ofList rest)
  match longWords.lookup name, value with
  | some (.takes o), some v => withValue a o v
  | some (.takes o), none => .wants a o
  | some .verbose, none => withVerbose a
  | some .help, none => .stop .help
  | some .version, none => .stop .version
  | _, _ => .stop (.refused ("'--" ++ String.ofList body ++ "' is not an option"))

/-- The outcome of the letters after a single hyphen. -/
def short (a : Arguments) : List Char → Outcome
  | [] => .done a
  | c :: rest =>
    match shortWords.lookup c with
    | some (.takes o) =>
      match rest with
      | [] => .wants a o
      | '=' :: value => withValue a o (String.ofList value)
      | value => withValue a o (String.ofList value)
    | some .verbose =>
      match withVerbose a with
      | .done a => short a rest
      | other => other
    | some .help => .stop .help
    | some .version => .stop .version
    | none => .stop (.refused ("'-" ++ String.ofList [c] ++ "' is not an option"))

/-- The outcome of a word. -/
def word (a : Arguments) (w : String) : Outcome :=
  match w.toList with
  | ['-', '-'] => .escape
  | '-' :: '-' :: body => long a body
  | '-' :: c :: rest => short a (c :: rest)
  | _ => .stop (.refused ("'" ++ w ++ "' is not expected"))

/-- A word that can be the value of the option before it. -/
def isValue (w : String) : Bool :=
  match w.toList with
  | '-' :: _ :: _ => false
  | _ => true

/-- What the words ask for. -/
def words (a : Arguments) : List String → Command
  | [] => .run a
  | w :: rest =>
    match word a w, rest with
    | .done a, rest => words a rest
    | .stop c, _ => c
    | .escape, [] => .run a
    | .escape, _ :: _ => .refused "a word is not expected"
    | .wants _ _, [] => .refused "a value is missing"
    | .wants a o, v :: rest =>
      if isValue v then
        match a.set v o with
        | .ok a => words a rest
        | .error reason => .refused reason
      else .refused "a value is missing"

/-- The variable that names the file of the clients where no word does. -/
def clientsVariable : String := "PROXIMA_CLIENTS_PATH"

/-- What the command line asks for. -/
def parse (env : Environment) (args : List String) : Command :=
  match words {} args with
  | .run a =>
    match a.clients, env.lookup clientsVariable with
    | none, some value =>
      match a.set value .clients with
      | .ok a => .run a
      | .error reason => .refused reason
    | _, _ => .run a
  | other => other

/-- Settings with what the words say put over them. -/
def applyTo (a : Arguments) (s : Settings) : Settings :=
  { s with
    clientsPath := a.clients <|> s.clientsPath
    k := a.k.getD s.k
    metric := a.metric.getD s.metric
    leafCapacity := a.leafCapacity.getD s.leafCapacity
    reloadSecs := a.reloadSecs.getD s.reloadSecs
    logging := if a.verbose then { s.logging with level := "debug" } else s.logging }

/-- The name and the version of the program. -/
def versionText : String := "proxima 0.1.0"

/-- What stands before the explanation of an option. -/
def indent : String := String.ofList (List.replicate 39 ' ')

/-- The text of the help; a line break in the value of a variable starts a line of the explanation
column. -/
def help (env : Environment) : String :=
  let given := ((env.lookup clientsVariable).getD "").replace "\n" ("\n" ++ indent)
  "Поиск ближайших клиентов для потока позиций в реальном времени

Usage: proxima [OPTIONS]

Options:
      --clients <CLIENTS>              Файл со строками `id,lon,lat[,payload]` [env: " ++
      clientsVariable ++ "=" ++ given ++ "]
  -k, --k <K>                          Число ближайших клиентов на обновление
      --metric <METRIC>                Метрика расстояния: euclidean или haversine
      --leaf-capacity <LEAF_CAPACITY>  Максимум точек в листе индекса
      --reload-secs <RELOAD_SECS>      Перечитывать файл клиентов каждые N секунд (0 отключает)
  -c, --config <CONFIG>                Файл конфигурации (TOML, YAML или JSON)
  -v, --verbose                        Включить подробный вывод (debug)
  -h, --help                           Print help
  -V, --version                        Print version"

/-- The lines of the help. -/
def helpText (env : Environment) : List String :=
  (String.ofList (Text.bare (help env).toList)).splitOn "\n"

end Arguments

end FleetMatch
