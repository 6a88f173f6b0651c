import FleetMatch.CommandLine.Program
import FleetMatch.Proofs.Distance.Kind
import FleetMatch.Proofs.Engine.Reload
import FleetMatch.Proofs.Index.Nearest
import FleetMatch.Proofs.Text.Blank

/-!
# What the program writes

The program answers its input line by line.  A line changes nothing but the counters of the engine, so
what is written for a line does not depend on the lines before it, unless one of them is not text.

* `PositionUpdate.ofLine?`, `Snapshot.record?`: the update of a line, and the record that answers it.
* `Session.answerText_eq` — one line gets its record, and the next line finds the same index.
* `Session.answerAll_eq` — the records of the lines before the first that is not text.
* `Served`, `run_served` — all that the program writes and how it ends, for every input.
-/

set_option autoImplicit false

namespace FleetMatch

/-! ## Lines -/

namespace Text.Utf8

/-- The bytes are the bytes of a text. -/
def isText (bytes : List UInt8) : Bool := (decode bytes).toOption.isSome

/-- What keeps bytes from being a text. -/
def failure? (bytes : List UInt8) : Option Failure :=
  match decode bytes with
  | .ok _ => none
  | .error failure => some failure

variable {bytes : List UInt8}

theorem isText_of_ok {text : List Char} (decoded : decode bytes = .ok text) :
    isText bytes = true ∧ failure? bytes = none := by
  simp [isText, failure?, decoded, Except.toOption]

theorem isText_of_error {failure : Failure} (decoded : decode bytes = .error failure) :
    isText bytes = false ∧ failure? bytes = some failure := by
  simp [isText, failure?, decoded, Except.toOption]

theorem findSome?_failure? {lines : List (List UInt8)} (text : ∀ line ∈ lines, isText line = true) :
    lines.findSome? failure? = none := by
  rw [List.findSome?_eq_none_iff]
  intro line hl
  have sound := text line hl
  cases decoded : decode line with
  | ok _ => exact (isText_of_ok decoded).2
  | error failure => exact absurd (sound.symm.trans (isText_of_error decoded).1) (by decide)

end Text.Utf8

/-- The update of a line, if the line is one. -/
def PositionUpdate.ofLine? (line : List UInt8) : Option PositionUpdate :=
  match Text.Utf8.decode line with
  | .ok text => (parse text).toOption
  | .error _ => none

/-- The record that answers a line, if the line is an update and may be answered. -/
def Snapshot.record? (current : Snapshot) (k : Nat) (now : String) (line : List UInt8) :
    Option MatchRecord :=
  match PositionUpdate.ofLine? line with
  | none => none
  | some u =>
    match (u.request k).replyFrom current.index with
    | .ok (some found) => some (.ofNeighbors u current.version now found)
    | _ => none

theorem PositionUpdate.parse_blank {text : List Char} (blank : Text.isAllBlank text = true) :
    PositionUpdate.parse text = .error (.invalidUpdate .truncated) := by
  rw [parse, Text.trim_eq_nil_iff.2 blank]
  rfl

namespace Program

namespace Session

variable (session : Session) (now : String)

/-- **A line of text gets its record**, and the next line finds the same index. -/
theorem answerText_eq {line : List UInt8} {text : List Char}
    (decoded : Text.Utf8.decode line = .ok text) :
    (session.answerText now text).record? = session.engine.current.record? session.k now line ∧
      (session.answerText now text).session.engine.current = session.engine.current ∧
      (session.answerText now text).session.k = session.k := by
  have update : PositionUpdate.ofLine? line = (PositionUpdate.parse text).toOption := by
    rw [PositionUpdate.ofLine?, decoded]
  unfold answerText Snapshot.record?
  rw [update]
  -- A blank line is passed over before it is read, but reading it would give no update either.
  by_cases blank : Text.isAllBlank text = true
  · rw [if_pos blank, PositionUpdate.parse_blank blank]
    exact ⟨rfl, rfl, rfl⟩
  · rw [if_neg blank]
    cases parsed : PositionUpdate.parse text with
    | error err => exact ⟨rfl, rfl, rfl⟩
    | ok u =>
      have asked : session.engine.queryVersioned (u.request session.k) =
          ⟨(session.engine.version, (u.request session.k).replyFrom session.engine.current.index),
            (session.engine.query (u.request session.k)).engine,
            (session.engine.query (u.request session.k)).events⟩ := rfl
      simp only [asked, Except.toOption]
      rcases (u.request session.k).replyFrom session.engine.current.index with err | none | found
      · exact ⟨rfl, rfl, rfl⟩
      · exact ⟨rfl, rfl, rfl⟩
      · exact ⟨rfl, rfl, rfl⟩

/-- **The records of the lines before the first that is not text**, and what is wrong with this one. -/
theorem answerAll_eq (lines : List (List UInt8)) : session.answerAll now lines =
    ((lines.takeWhile Text.Utf8.isText).filterMap (session.engine.current.record? session.k now),
      (lines.findSome? Text.Utf8.failure?).map Text.Utf8.Failure.message) := by
  induction lines generalizing session with
  | nil => rfl
  | cons line rest ih =>
    unfold answerAll answer
    cases decoded : Text.Utf8.decode line with
    | error failure =>
      obtain ⟨untext, found⟩ := Text.Utf8.isText_of_error decoded
      rw [List.takeWhile_cons_of_neg (by simp [untext])]
      simp only [List.findSome?_cons, found]
      rfl
    | ok text =>
      obtain ⟨isText, unfound⟩ := Text.Utf8.isText_of_ok decoded
      obtain ⟨record, current, k⟩ := session.answerText_eq now decoded
      rw [List.takeWhile_cons_of_pos isText, List.filterMap_cons]
      simp only [ih, record, current, k, List.findSome?_cons, unfound]
      cases session.engine.current.record? session.k now line with
      | none => rfl
      | some r => rfl

/-- A session starts with the index of the roster that was read, as version one. -/
theorem start_eq {s : Settings} {folder : Folder} {path : String} {format : RowFormat}
    {bytes : List UInt8} {roster : Roster} {ix : Index} (readable : folder.read path = .ok bytes)
    (loads : format.read path bytes = .ok roster) (built : Index.build? s.indexConfig roster = .ok ix) :
    ∃ session, start s (source folder path format) = .ok session ∧
      session.engine.current = ⟨1, ix⟩ ∧ session.k = s.k := by
  let e := Engine.start (.empty s.metric.metric)
  have loading : (source folder path format).load e =
      ⟨.loaded roster, e, [.loaded path roster.length]⟩ := by
    simp [source, Source.file, readable, loads, Source.constant]
  have accepted : roster.check = .ok () := (Index.buildBy?_eq_ok built).1
  have settled := e.reloadApart_settles (source folder path format) s.indexConfig
  rw [loading] at settled
  have published := settled.published roster rfl accepted
  have answer := (settled.published_iff (e.version + 1)).2 ⟨rfl, roster, rfl, accepted⟩
  refine ⟨⟨(e.reloadApart (source folder path format) s.indexConfig).engine, s.k⟩, ?_, ?_, rfl⟩
  · unfold start
    simp only [show ((Engine.start (.empty s.metric.metric)).reloadApart (source folder path format)
      s.indexConfig).answer = .published (e.version + 1) from answer]
    rfl
  · have index := published.built
    rw [built] at index
    have same : ix = (e.reloadApart (source folder path format) s.indexConfig).engine.index :=
      Except.ok.inj index
    rw [same]
    exact congrArg (Snapshot.mk · _) published.version

end Session

/-! ## Whole runs -/

/-- The program has got as far as its input: it has settings that ask for no reloads, whatever formats it
reads them from, its log is open, and its clients form an index. -/
structure Ready (folder : Folder) (env : Environment) (args : List String) (clocks : Clocks)
    (s : Settings) (folder' : Folder) (ix : Index) (further : List Layer.FileFormat := []) : Prop where
  settings : prepare folder.contents? env args further = .ok s
  once : s.reloadSecs = 0
  log : openLog s.logging clocks.today folder = (folder', none)
  clients : ∃ path format bytes roster, clientsFile s = .ok (path, format) ∧
    folder'.read path = .ok bytes ∧ format.read path bytes = .ok roster ∧
      Index.build? s.indexConfig roster = .ok ix

variable {folder folder' : Folder} {env : Environment} {args : List String} {clocks : Clocks}
  {s : Settings} {ix : Index} {further : List Layer.FileFormat}

theorem Ready.serve_eq (h : Ready folder env args clocks s folder' ix further) (input : List UInt8) :
    serve folder' s clocks input = .ok
      ((((Text.Lines.split input).takeWhile Text.Utf8.isText).filterMap
          (Snapshot.record? ⟨1, ix⟩ s.k clocks.now)).map MatchRecord.line,
        ((Text.Lines.split input).findSome? Text.Utf8.failure?).map Text.Utf8.Failure.message) := by
  obtain ⟨path, format, bytes, roster, file, readable, loads, built⟩ := h.clients
  obtain ⟨session, started, current, k⟩ := Session.start_eq readable loads built
  have timely : lateError? s clocks.uptime = none := by simp [lateError?, beyondClock, h.once]
  unfold serve
  simp only [file, started, Session.answerAll_eq, current, k, timely]
  cases (Text.Lines.split input).findSome? Text.Utf8.failure? with
  | none => rfl
  | some failure => rfl

theorem Ready.run_eq (h : Ready folder env args clocks s folder' ix further) {input : List UInt8}
    {output : List String} {fault? : Option String}
    (served : serve folder' s clocks input = .ok (output, fault?)) :
    run folder env args clocks input further = ⟨if fault?.isSome then 1 else 0, fault?, output, folder'⟩ := by
  unfold run
  simp only [h.settings, h.log, served]
  cases fault? with
  | none => rfl
  | some error => rfl

/-- What is written for the lines of an input, and how the program ends. -/
structure Served (s : Settings) (now : String) (ix : Index) (lines : List (List UInt8))
    (result : Result) : Prop where
  /-- Every update whose request is not refused has an answer. -/
  answered : ∀ r : Request, r.check = .ok () → ∃ found, r.replyFrom ix = .ok (some found)
  /-- If all lines are text, they get their records in order, and the program ends well. -/
  whole : (∀ line ∈ lines, Text.Utf8.isText line = true) →
    result.output = (lines.filterMap (Snapshot.record? ⟨1, ix⟩ s.k now)).map MatchRecord.line ∧
      result.exit = 0 ∧ result.error = none
  /-- The first line that is not text ends the run, and the lines before it have their records. -/
  broken : ∀ before line after failure, lines = before ++ line :: after →
    (∀ line ∈ before, Text.Utf8.isText line = true) → Text.Utf8.decode line = .error failure →
    result.output = (before.filterMap (Snapshot.record? ⟨1, ix⟩ s.k now)).map MatchRecord.line ∧
      result.exit = 1 ∧ result.error = some failure.message

theorem answered_of_build {roster : Roster} (built : Index.build? s.indexConfig roster = .ok ix)
    {r : Request} (fit : r.check = .ok ()) : ∃ found, r.replyFrom ix = .ok (some found) := by
  have bounds : s.indexConfig.metric.BoundsProper r.place False := s.metric.boundsProper r.place
  obtain ⟨found, -, nearest, -⟩ := Index.nearestBy_progress built bounds Agenda.heap r.k
  refine ⟨found.toList, ?_⟩
  rw [Request.replyFrom, fit]
  exact congrArg Except.ok nearest

/-- **What the program writes, for every input**: each line of text that is an update and may be
answered gets its record, in order, and every other line of text gets none.  A line that is not text
ends the run. -/
theorem run_served (ready : Ready folder env args clocks s folder' ix further) (input : List UInt8) :
    Served s clocks.now ix (Text.Lines.split input) (run folder env args clocks input further) := by
  have done := ready.run_eq (ready.serve_eq input)
  generalize Text.Lines.split input = lines at done
  rw [done]
  constructor
  case answered =>
    intro r fit
    obtain ⟨_, _, _, roster, _, _, _, built⟩ := ready.clients
    exact answered_of_build built fit
  case whole =>
    intro text
    have all : lines.takeWhile Text.Utf8.isText = lines := List.takeWhile_eq_self_iff.2 text
    simp [all, Text.Utf8.findSome?_failure? text]
  case broken =>
    intro before line after failure split text decoded
    subst split
    obtain ⟨untext, fault⟩ := Text.Utf8.isText_of_error decoded
    have kept : (before ++ line :: after).takeWhile Text.Utf8.isText = before := by
      rw [List.takeWhile_append_of_pos text, List.takeWhile_cons_of_neg (by simp [untext]),
        List.append_nil]
    have found : (before ++ line :: after).findSome? Text.Utf8.failure? = some failure := by
      rw [List.findSome?_append, Text.Utf8.findSome?_failure? text, List.findSome?_cons, fault]
      rfl
    simp [kept, found]

/-! ## Two clients and a stray byte -/

/-- A folder with two clients. -/
def twoClients : Folder := ⟨[(["c.csv"], .file (Text.Utf8.encode "1,0,0\n2,3,4\n".toList))]⟩

/-- Two updates, and between them a line that is not text. -/
def strayByte : List UInt8 :=
  Text.Utf8.encode "\x7b\"lon\":0,\"lat\":0,\"taxiId\":1\x7d\n".toList ++ 0xFF :: Text.Lines.lineFeed ::
    Text.Utf8.encode "\x7b\"lon\":1,\"lat\":0,\"taxiId\":2\x7d\n".toList

theorem read_twoClients :
    twoClients.read "c.csv" = .ok (Text.Utf8.encode "1,0,0\n2,3,4\n".toList) := by
  decide +kernel

theorem ready_twoClients (clocks : Clocks) : ∃ ix, Ready twoClients [] ["--clients", "c.csv"] clocks
    { clientsPath := some "c.csv" } twoClients ix := by
  have sound : ((RowFormat.mk ',' false).read "c.csv"
      (Text.Utf8.encode "1,0,0\n2,3,4\n".toList)).toOption.any
        (fun roster => roster.check.toOption.isSome) = true := by decide +kernel
  cases loads : (RowFormat.mk ',' false).read "c.csv" (Text.Utf8.encode "1,0,0\n2,3,4\n".toList) with
  | error err =>
    rw [loads] at sound
    cases sound
  | ok roster =>
    rw [loads] at sound
    have accepted : roster.check = .ok () := by
      cases checked : roster.check with
      | ok _ => rfl
      | error err => simp [Except.toOption, checked] at sound
    obtain ⟨ix, built, -⟩ := Index.build?_of_check ⟨.euclidean, .ofNat 16⟩ accepted
    have settings : prepare twoClients.contents? [] ["--clients", "c.csv"] =
        .ok { clientsPath := some "c.csv" } := by decide +kernel
    exact ⟨ix, settings, rfl, rfl, _, _, _, _, rfl, read_twoClients, loads, built⟩

/-- Lines that are not text are not skipped as other lines are. -/
theorem stray_byte_not_skipped : ¬ ∀ (folder folder' : Folder) (env : Environment) (args : List String)
    (clocks : Clocks) (s : Settings) (ix : Index) (input : List UInt8),
    Ready folder env args clocks s folder' ix →
      (run folder env args clocks input).output = ((Text.Lines.split input).filterMap
          (Snapshot.record? ⟨1, ix⟩ s.k clocks.now)).map MatchRecord.line ∧
        (run folder env args clocks input).exit = 0 := by
  intro skipped
  obtain ⟨ix, ready⟩ := ready_twoClients ⟨"", "", 0⟩
  have sound := (skipped _ _ _ _ _ _ _ strayByte ready).2
  have broken : (Text.Lines.split strayByte).findSome? Text.Utf8.failure? = some (.malformed 1 0) := by
    decide +kernel
  rw [ready.run_eq (ready.serve_eq strayByte), broken] at sound
  simp at sound

/-- Only the first of the two updates gets a record. -/
theorem stray_byte_served : ∃ ix, Ready twoClients [] ["--clients", "c.csv"] ⟨"", "", 0⟩
      { clientsPath := some "c.csv" } twoClients ix ∧
    Served { clientsPath := some "c.csv" } "" ix (Text.Lines.split strayByte)
      (run twoClients [] ["--clients", "c.csv"] ⟨"", "", 0⟩ strayByte) := by
  obtain ⟨ix, ready⟩ := ready_twoClients ⟨"", "", 0⟩
  exact ⟨ix, ready, run_served ready strayByte⟩

end Program

end FleetMatch
