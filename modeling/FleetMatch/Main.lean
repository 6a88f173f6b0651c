import FleetMatch.CommandLine.Program
import FleetMatch.Message.Stamp
import Std.Time.DateTime.Timestamp

/-!
# The command

Connects the program with files, variables, clocks and streams.  Updates are answered as they come
in; a reload that is due is made before the next update is answered.
-/

namespace FleetMatch.Main

/-- The contents of a file, or why it cannot be read. -/
def readFile (path : String) : IO (Except (ReadFault × String) (List UInt8)) := do
  try
    let bytes ← IO.FS.readBinFile path
    return .ok bytes.toList
  catch e =>
    let fault : ReadFault :=
      match e with
      | .noFileOrDirectory .. => .notFound
      | .permissionDenied .. => .permissionDenied
      | .timeExpired .. => .timedOut
      | .unexpectedEof .. => .unexpectedEof
      | _ => .other
    return .error (fault, e.toString)

/-- The variables of the environment. -/
def environment : IO Environment := do
  match ← readFile "/proc/self/environ" with
  | .error _ => return []
  | .ok bytes =>
    let entries := (String.ofList (Text.Utf8.decodeLossy bytes)).splitOn "\x00"
    return entries.filterMap fun entry =>
      let name := entry.toList.takeWhile (· != '=')
      let value := (entry.toList.dropWhile (· != '=')).drop 1
      if name.isEmpty then none else some (String.ofList name, String.ofList value)

/-- The contents of the files that the settings may come from. -/
def settingsContents (path? : Option String) : IO Contents := do
  let paths : List String := match path? with
    | none => []
    | some path => path :: (Layer.extensions []).filterMap fun (ext, _) => Path.withEnding ext path
  let files ← paths.filterMapM fun path => do
    match ← readFile path with
    | .ok contents => return some (path, contents)
    | .error _ => return none
  return fun path => files.lookup path

/-- The time since the start of 1970 in milliseconds. -/
def milliseconds : IO Nat := do
  let now ← Std.Time.Timestamp.now
  return now.toMillisecondsSinceUnixEpoch.toInt.toNat

/-- Where events are written to. -/
structure Log where
  options : LoggingOptions
  file? : Option IO.FS.Handle

/-- What keeps a path from being used, in words. -/
def faultText : IO.Error → String
  | .noFileOrDirectory .. => PathFault.missing.message
  | .alreadyExists .. => PathFault.exists.message
  | .inappropriateType .. => PathFault.notFolder.message
  | .invalidArgument _ 36 _ => PathFault.nameTooLong.message
  | e => e.toString

/-- The path leads to a folder. -/
def isFolder (path : String) : IO Bool := do
  try
    (← IO.FS.realPath path).isDir
  catch _ => return false

/-- Makes a folder if it is not there; the answer is what else keeps it from being made. -/
def makeOnce (path : String) : IO (Option IO.Error) := do
  try
    IO.FS.createDir path
    return none
  catch e =>
    match e with
    | .alreadyExists .. => return if ← isFolder path then none else some e
    | _ => return some e

/-- Makes a folder and those that lead to it, as far as they are not there. -/
def makeAll (path : String) : IO (Option IO.Error) := do
  if path.isEmpty then return none
  let mut later := []
  for folder in path :: Path.ancestors path do
    match ← makeOnce folder with
    | none => break
    | some e =>
      match e with
      | .noFileOrDirectory .. => later := folder :: later
      | _ => return some e
  for folder in later do
    if let some e ← makeOnce folder then return some e
  return none

/-- Opens a file for writing at its end. -/
def openFile? (path : String) : IO (Option IO.FS.Handle) := do
  try
    return some (← IO.FS.Handle.mk path .append)
  catch _ => return none

/-- The log that the options ask for; its folder and its file are made if they are not there. -/
def openLog (options : LoggingOptions) : IO (Except Program.Stop Log) := do
  if options.file.enabled then
    if let some e ← makeAll options.folder then return .error (.failed (faultText e))
    let path := Program.logPath options (Stamp.dateText (← milliseconds))
    if let some file ← openFile? path then return .ok ⟨options, some file⟩
    if (← makeAll (Path.parent path)).isSome then return .error .crashed
    match ← openFile? path with
    | some file => return .ok ⟨options, some file⟩
    | none => return .error .crashed
  else return .ok ⟨options, none⟩

/-- Writes the events that are loud enough. -/
def Log.write (log : Log) (events : List Event) : IO Unit := do
  for event in events do
    if log.options.shows event.severity then
      if log.options.console.enabled then IO.eprintln event.line
      if let some file := log.file? then
        file.putStrLn event.line
        file.flush

/-- A session together with the reloads that are to come. -/
structure State where
  session : Program.Session
  /-- When the next reload is due, if one is. -/
  due? : Option Nat

/-- Makes a reload that is due. -/
def State.reload (s : State) (log : Log) (settings : Settings) (path : String)
    (format : RowFormat) : IO State := do
  match s.due? with
  | none => return s
  | some due =>
    let now ← IO.monoMsNow
    if now < due then return s
    else
      let source := Source.file format path (← readFile path)
      let done := s.session.engine.reloadApart source settings.indexConfig
      log.write done.events
      return ⟨{ s.session with engine := done.engine }, some (now + 1000 * settings.reloadSecs)⟩

/-- Answers the lines of the input one by one; the answer is the error that ends the input early. -/
partial def serve (log : Log) (settings : Settings) (path : String) (format : RowFormat)
    (input output : IO.FS.Stream) (pending : List UInt8) (s : State) : IO (Option String) := do
  let (line, after) := Text.Lines.first pending
  if line.getLast? == some Text.Lines.lineFeed then
    match ← step line with
    | .error message => return some message
    | .ok s => serve log settings path format input output after s
  else
    let more ← input.read 65536
    if more.isEmpty then
      if pending.isEmpty then return none
      else
        match ← step pending with
        | .error message => return some message
        | .ok _ => return none
    else serve log settings path format input output (pending ++ more.toList) s
where
  /-- Answers one line. -/
  step (line : List UInt8) : IO (Except String State) := do
    let s ← s.reload log settings path format
    let now := Stamp.text (← milliseconds)
    match s.session.answer now line with
    | .error failure => return .error failure.message
    | .ok step =>
      log.write step.events
      if let some record := step.record? then
        output.putStrLn record.line
        output.flush
      return .ok { s with session := step.session }

/-- Ends the program early. -/
def stop : Program.Stop → IO UInt32
  | .shown text => do
    for line in text do
      IO.println line
    return 0
  | .misused reason => do
    IO.eprintln ("error: " ++ reason)
    return 2
  | .failed error => do
    IO.eprintln ("Error: " ++ error)
    return 1
  | .crashed => do
    IO.eprintln "the log file cannot be made"
    return 101

/-- Runs with settings that have been checked. -/
def runWith (settings : Settings) : IO UInt32 := do
  match ← openLog settings.logging with
  | .error reason => stop reason
  | .ok log =>
    match Program.clientsFile settings with
    | .error reason => stop reason
    | .ok (path, format) =>
      match Program.Session.start settings (.file format path (← readFile path)) with
      | .error reason => stop reason
      | .ok session =>
        let started ← IO.monoMsNow
        let uptime := started / 1000
        let due? := if settings.reloadSecs = 0 || Program.beyondClock settings uptime then none
          else some (started + 1000 * settings.reloadSecs)
        let fault? ← serve log settings path format (← IO.getStdin) (← IO.getStdout) []
          ⟨session, due?⟩
        match fault? <|> Program.lateError? settings uptime with
        | some error => stop (.failed error)
        | none => return 0

end FleetMatch.Main

/-- The command. -/
def main (args : List String) : IO UInt32 := do
  let env ← FleetMatch.Main.environment
  let path? := match FleetMatch.Arguments.parse env args with
    | .run a => a.config
    | _ => none
  match FleetMatch.Program.prepare (← FleetMatch.Main.settingsContents path?) env args with
  | .error reason => FleetMatch.Main.stop reason
  | .ok settings =>
    try
      FleetMatch.Main.runWith settings
    catch e => FleetMatch.Main.stop (.failed e.toString)
