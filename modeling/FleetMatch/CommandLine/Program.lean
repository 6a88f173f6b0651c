import FleetMatch.CommandLine.Arguments
import FleetMatch.Engine.Background
import FleetMatch.Folder.Basic
import FleetMatch.Message.Record

/-!
# The program

The program reads the clients from a file, then updates from its input line by line, and writes a
record for every update that it can answer.

* `Program.effective`: the settings that arguments lead to, or why they are refused.
* `Program.prepare`: the settings that the program runs with, or why it does not run.
* `Program.openLog`: makes the folder and the file of the log.
* `Program.Session`: an engine that answers lines.  `Session.answer` answers one line,
  `Session.answerAll` all lines of an input.
* `Program.run`: the whole program on given files, words, variables and input.

A line that is blank, is no update or asks for what the engine refuses gets no record.  A line that
is not text ends the run.
-/

namespace FleetMatch.Program

/-- Why the program ends before its input does. -/
inductive Stop where
  /-- There is nothing to do but to show these lines. -/
  | shown (text : List String)
  /-- The command line is wrong. -/
  | misused (reason : String)
  /-- The program failed. -/
  | failed (error : String)
  /-- The file of the log could not be made. -/
  | crashed
  deriving DecidableEq, Repr

/-! ## Settings -/

/-- Which settings are refused, and why. -/
inductive Refusal where
  /-- The settings below the command line, by themselves. -/
  | below (cause : SettingsError)
  /-- The settings with the command line over them. -/
  | final (cause : SettingsError)
  deriving DecidableEq, Repr

/-- The refusal in words.  Its cause is told by itself. -/
def Refusal.message : Refusal → String
  | .below _ => "failed to load settings"
  | .final _ => "invalid settings"

/-- The settings that arguments lead to.  What lies below the command line is checked before the
arguments are put over it, and the outcome is checked again. -/
def effective (contents : Contents) (env : Environment) (a : Arguments)
    (further : List Layer.FileFormat := []) : Except Refusal Settings :=
  match Settings.load contents a.config env further with
  | .error e => .error (.below e)
  | .ok loaded =>
    let s := a.applyTo loaded
    match s.check with
    | .error e => .error (.final e)
    | .ok () => .ok s

/-- The settings that the program runs with. -/
def settings (contents : Contents) (env : Environment) (a : Arguments)
    (further : List Layer.FileFormat := []) : Except Stop Settings :=
  match effective contents env a further with
  | .error refusal => .error (.failed refusal.message)
  | .ok s => .ok s

/-- The settings that the program runs with, from the words of the command line. -/
def prepare (contents : Contents) (env : Environment) (args : List String)
    (further : List Layer.FileFormat := []) : Except Stop Settings :=
  match Arguments.parse env args with
  | .help => .error (.shown (Arguments.helpText env))
  | .version => .error (.shown [Arguments.versionText])
  | .refused reason => .error (.misused reason)
  | .run a => settings contents env a further

/-! ## Log files -/

/-- What the clocks show when the program starts. -/
structure Clocks where
  /-- The time of day with its date. -/
  now : String
  /-- The date alone. -/
  today : String
  /-- For how many seconds the machine has been running. -/
  uptime : Nat

/-- The path of the log file; its name ends with a date. -/
def logPath (o : LoggingOptions) (today : String) : String :=
  Path.joined o.folder (o.file.filename ++ "." ++ today)

/-- Makes the folder and the file of the log, as far as they are asked for. -/
def openLog (o : LoggingOptions) (today : String) (folder : Folder) : Folder × Option Stop :=
  if o.file.enabled then
    match folder.makeAll o.folder with
    | (folder, some fault) => (folder, some (.failed fault.message))
    | (folder, none) =>
      let path := logPath o today
      match folder.append path with
      | .ok folder => (folder, none)
      | .error _ =>
        match folder.makeAll (Path.parent path) with
        | (folder, some _) => (folder, some .crashed)
        | (folder, none) =>
          match folder.append path with
          | .ok folder => (folder, none)
          | .error _ => (folder, some .crashed)
  else (folder, none)

/-! ## Answering lines -/

/-- An engine that answers lines. -/
structure Session where
  engine : Engine
  /-- How many clients an update asks for. -/
  k : Nat

namespace Session

/-- The session after the first load of the clients. -/
def start (s : Settings) (source : Source) : Except Stop Session :=
  let first := (Engine.start (.empty s.metric.metric)).reloadApart source s.indexConfig
  match first.answer with
  | .published _ => .ok ⟨first.engine, s.k⟩
  | _ => .error (.failed "initial load of the clients file failed")

/-- What a line leaves behind. -/
structure Step where
  session : Session
  record? : Option MatchRecord
  events : List Event

/-- Answers a line of text. -/
def answerText (now : String) (line : List Char) (session : Session) : Step :=
  if Text.isAllBlank line then ⟨session, none, []⟩
  else
    match PositionUpdate.parse line with
    | .error e => ⟨session, none, [.skippedLine e]⟩
    | .ok update =>
      let done := session.engine.queryVersioned (update.request session.k)
      let next := { session with engine := done.engine }
      match done.answer with
      | (version, .ok (some found)) =>
        ⟨next, some (.ofNeighbors update version now found), done.events⟩
      | (_, .ok none) => ⟨next, none, done.events⟩
      | (_, .error e) => ⟨next, none, done.events ++ [.skippedUpdate update.taxiId e]⟩

/-- Answers a line, or tells why it is not text. -/
def answer (now : String) (line : List UInt8) (session : Session) :
    Except Text.Utf8.Failure Step :=
  match Text.Utf8.decode line with
  | .error failure => .error failure
  | .ok text => .ok (session.answerText now text)

/-- Answers lines one after another.  The records are returned up to the first line that is not
text, together with what is wrong with it. -/
def answerAll (now : String) : List (List UInt8) → Session → List MatchRecord × Option String
  | [], _ => ([], none)
  | line :: rest, session =>
    match session.answer now line with
    | .error failure => ([], some failure.message)
    | .ok step =>
      let (records, fault?) := answerAll now rest step.session
      (step.record?.toList ++ records, fault?)

end Session

/-! ## The whole program -/

/-- How the program ends. -/
structure Result where
  exit : Nat
  /-- The error, if there is one to tell. -/
  error : Option String
  /-- The lines that are written. -/
  output : List String
  /-- What then lies in the working folder. -/
  folder : Folder

/-- The end of a program that stops early. -/
def Stop.result (folder : Folder) : Stop → Result
  | .shown text => ⟨0, none, text, folder⟩
  | .misused _ => ⟨2, none, [], folder⟩
  | .failed error => ⟨1, some error, [], folder⟩
  | .crashed => ⟨101, none, [], folder⟩

/-- The file of the clients with its format. -/
def clientsFile (s : Settings) : Except Stop (String × RowFormat) :=
  match s.rosterFile? with
  | .error e => .error (.failed e.message)
  | .ok none =>
    .error (.failed "no clients file configured (pass --clients or set PROXIMA_CLIENTS_PATH)")
  | .ok (some file) => .ok file

/-- The file of the clients as a source. -/
def source (folder : Folder) (path : String) (format : RowFormat) : Source :=
  Source.file format path <|
    match folder.read path with
    | .ok bytes => .ok bytes
    | .error fault => .error (if fault = .missing then .notFound else .other, fault.message)

/-- Reloading in the background is asked for, but the clock, which counts seconds from the start of
the machine on, does not reach that far. -/
def beyondClock (s : Settings) (uptime : Nat) : Bool :=
  s.reloadSecs ≠ 0 && 0x8000000000000000 ≤ s.reloadSecs + uptime

/-- The error that is told when the input has come to its end, if there is one. -/
def lateError? (s : Settings) (uptime : Nat) : Option String :=
  if beyondClock s uptime then some "reload task panicked" else none

/-- The program from its settings on. -/
def serve (folder : Folder) (s : Settings) (clocks : Clocks) (input : List UInt8) :
    Except Stop (List String × Option String) :=
  match clientsFile s with
  | .error stop => .error stop
  | .ok (path, format) =>
    match Session.start s (source folder path format) with
    | .error stop => .error stop
    | .ok session =>
      let (records, fault?) := session.answerAll clocks.now (Text.Lines.split input)
      .ok (records.map MatchRecord.line, fault? <|> lateError? s clocks.uptime)

/-- The whole program. -/
def run (folder : Folder) (env : Environment) (args : List String) (clocks : Clocks)
    (input : List UInt8) (further : List Layer.FileFormat := []) : Result :=
  match prepare folder.contents? env args further with
  | .error stop => stop.result folder
  | .ok s =>
    match openLog s.logging clocks.today folder with
    | (folder, some stop) => stop.result folder
    | (folder, none) =>
      match serve folder s clocks input with
      | .error stop => stop.result folder
      | .ok (lines, none) => ⟨0, none, lines, folder⟩
      | .ok (lines, some error) => ⟨1, some error, lines, folder⟩

end FleetMatch.Program
