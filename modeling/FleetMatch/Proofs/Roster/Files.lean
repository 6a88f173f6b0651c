import FleetMatch.Proofs.Text.Blank
import FleetMatch.Proofs.Text.Lines
import FleetMatch.Proofs.Text.Utf8
import FleetMatch.Roster.Rows

/-!
# Files of rows, part by part

A file of rows is read line by line, with the number of the line and whether a header is still to come.
So what is read from a file is put together from what is read from its parts, if each part but the last
ends with a line.

* `RowFormat.row?`: what counts of a line; `fromLines_congr` — nothing else does.
* `fromLines_append`, `fromLines_add` — lines after other lines, and lines further down.
* `line_of_fromLines` — an error names one of the lines that were read.
* `Compositional`, `read_compositional` — what follows for files: a part that cannot be read is the end
  of it, lines without clients only move other lines down, and carriage returns do not count.
-/

set_option autoImplicit false

namespace FleetMatch

open Text (trim)
open Text.Lines (split Ended Returned SameUpToReturn)

/-- The error with another line, if it names one. -/
def LoadError.mapLine (move : Nat → Nat) : LoadError → LoadError
  | .invalidRow line reason => .invalidRow (move line) reason
  | .unreadable path fault reason => .unreadable path fault reason
  | .invalidUpdate fault => .invalidUpdate fault

namespace RowFormat

/-- What counts of a line: its characters without the blanks around them, if it is text. -/
def row? (line : List UInt8) : Option (List Char) := (Text.Utf8.text? line).map trim

/-- The line is text that holds neither a client nor a header. -/
def isIdle (line : List UInt8) : Bool := (row? line).any isSkipped

/-- The line is text that holds a client or a header. -/
def isSignificant (line : List UInt8) : Bool := (row? line).any fun row => !isSkipped row

/-- How rows are written after a text: a header that it holds is not to come again. -/
def after (f : RowFormat) (text : List UInt8) : RowFormat :=
  { f with header := f.header && !(split text).any isSignificant }

variable (f : RowFormat) (path : String) {number : Nat} {pending : Bool} {line : List UInt8}
  {lines rest : List (List UInt8)} {row : List Char}

/-! ## One line -/

/-- What is told of a line that is not text. -/
def notText (path : String) : LoadError :=
  .unreadable path .invalidData "stream did not contain valid UTF-8"

theorem fromLines_notText (untext : row? line = none) :
    f.fromLines path number pending (line :: rest) = .error (notText path) := by
  unfold fromLines
  cases decoded : Text.Utf8.decode line with
  | error _ => rfl
  | ok text => simp [row?, Text.Utf8.text?, decoded, Except.toOption] at untext

theorem decode_of_row? (text : row? line = some row) :
    ∃ cs, Text.Utf8.decode line = .ok cs ∧ trim cs = row := by
  cases decoded : Text.Utf8.decode line with
  | error _ => simp [row?, Text.Utf8.text?, decoded, Except.toOption] at text
  | ok cs =>
    refine ⟨cs, rfl, ?_⟩
    simpa [row?, Text.Utf8.text?, decoded, Except.toOption] using text

/-- A line that holds nothing is passed over, and so is the first other one if a header is to come. -/
theorem fromLines_passed (text : row? line = some row) (passed : (isSkipped row || pending) = true) :
    f.fromLines path number pending (line :: rest) =
      f.fromLines path (number + 1) (pending && isSkipped row) rest := by
  obtain ⟨cs, decoded, rfl⟩ := decode_of_row? text
  conv_lhs => unfold fromLines
  simp only [decoded]
  cases skipped : isSkipped (trim cs) with
  | true => simp
  | false =>
    rw [skipped, Bool.false_or] at passed
    simp [passed]

theorem fromLines_client (text : row? line = some row) (held : isSkipped row = false) :
    f.fromLines path number false (line :: rest) =
      match f.client row with
      | .error e => .error (.invalidRow number e.message)
      | .ok client => (f.fromLines path (number + 1) false rest).map (client :: ·) := by
  obtain ⟨cs, decoded, rfl⟩ := decode_of_row? text
  conv_lhs => unfold fromLines
  simp only [decoded, held, Bool.false_eq_true, if_false]
  cases f.client (trim cs) with
  | error e => rfl
  | ok client => cases f.fromLines path (number + 1) false rest <;> rfl

/-- A line is not text, or it is passed over, or it is read as a client. -/
theorem line_cases (pending : Bool) (line : List UInt8) : row? line = none ∨
    (∃ row, row? line = some row ∧ (isSkipped row || pending) = true) ∨
      ∃ row, row? line = some row ∧ isSkipped row = false ∧ pending = false := by
  cases text : row? line with
  | none => exact .inl rfl
  | some row =>
    cases passed : isSkipped row || pending with
    | true => exact .inr (.inl ⟨row, rfl, passed⟩)
    | false => exact .inr (.inr ⟨row, rfl, Bool.or_eq_false_iff.1 passed⟩)

theorem isSignificant_eq (text : row? line = some row) : isSignificant line = !isSkipped row := by
  simp [isSignificant, text]

theorem isSignificant_of_isIdle (idle : isIdle line = true) : isSignificant line = false := by
  cases text : row? line with
  | none => simp [isIdle, text] at idle
  | some row => simpa [isIdle, isSignificant, text] using idle

/-! ## Many lines -/

/-- Of lines nothing counts but their rows. -/
theorem fromLines_congr {lines' : List (List UInt8)} (same : lines.map row? = lines'.map row?) :
    f.fromLines path number pending lines = f.fromLines path number pending lines' := by
  induction lines generalizing lines' number pending with
  | nil =>
    cases lines' with
    | nil => rfl
    | cons line' rest' => cases same
  | cons line rest ih =>
    cases lines' with
    | nil => cases same
    | cons line' rest' =>
      obtain ⟨sameRow, sameRest⟩ := List.cons.inj same
      rcases line_cases pending line with untext | ⟨row, text, passed⟩ | ⟨row, text, held, rfl⟩
      · rw [fromLines_notText f path untext, fromLines_notText f path (sameRow.symm.trans untext)]
      · rw [fromLines_passed f path text passed, fromLines_passed f path (sameRow.symm.trans text) passed,
          ih sameRest]
      · rw [fromLines_client f path text held, fromLines_client f path (sameRow.symm.trans text) held,
          ih sameRest]

/-- Lines are read, and then, if nothing was wrong with them, the lines after them. -/
theorem fromLines_append (more : List (List UInt8)) :
    f.fromLines path number pending (lines ++ more) =
      match f.fromLines path number pending lines with
      | .error e => .error e
      | .ok clients =>
        (f.fromLines path (number + lines.length) (pending && !lines.any isSignificant) more).map
          (clients ++ ·) := by
  induction lines generalizing number pending with
  | nil =>
    rw [List.nil_append, fromLines, List.any_nil, Bool.not_false, Bool.and_true]
    show _ = (f.fromLines path number pending more).map ([] ++ ·)
    cases f.fromLines path number pending more <;> rfl
  | cons line rest ih =>
    have count : number + (line :: rest).length = number + 1 + rest.length := by
      rw [List.length_cons]
      omega
    rw [List.cons_append, count, List.any_cons, Bool.not_or, ← Bool.and_assoc]
    rcases line_cases pending line with untext | ⟨row, text, passed⟩ | ⟨row, text, held, rfl⟩
    · rw [fromLines_notText f path untext, fromLines_notText f path untext]
    · rw [fromLines_passed f path text passed, fromLines_passed f path text passed, ih,
        isSignificant_eq text, Bool.not_not]
    · rw [fromLines_client f path text held, fromLines_client f path text held, ih]
      simp only [Bool.false_and]
      cases f.client row with
      | error e => rfl
      | ok client =>
        cases f.fromLines path (number + 1) false rest with
        | error e => rfl
        | ok clients => cases f.fromLines path (number + 1 + rest.length) false more <;> rfl

/-- Lines that stand further down are read as before, and named by where they stand. -/
theorem fromLines_add (down : Nat) : f.fromLines path (number + down) pending lines =
    (f.fromLines path number pending lines).mapError (LoadError.mapLine (· + down)) := by
  induction lines generalizing number pending with
  | nil => rfl
  | cons line rest ih =>
    have next : number + down + 1 = number + 1 + down := by omega
    rcases line_cases pending line with untext | ⟨row, text, passed⟩ | ⟨row, text, held, rfl⟩
    · rw [fromLines_notText f path untext, fromLines_notText f path untext]
      rfl
    · rw [fromLines_passed f path text passed, fromLines_passed f path text passed, next, ih]
    · rw [fromLines_client f path text held, fromLines_client f path text held, next, ih]
      cases f.client row with
      | error e => rfl
      | ok client => cases f.fromLines path (number + 1) false rest <;> rfl

/-- An error names one of the lines that were read. -/
theorem line_of_fromLines {named : Nat} {reason : String}
    (refused : f.fromLines path number pending lines = .error (.invalidRow named reason)) :
    number ≤ named ∧ named < number + lines.length := by
  induction lines generalizing number pending with
  | nil => simp [fromLines] at refused
  | cons line rest ih =>
    rw [List.length_cons]
    rcases line_cases pending line with untext | ⟨row, text, passed⟩ | ⟨row, text, held, rfl⟩
    · rw [fromLines_notText f path untext] at refused
      cases refused
    · rw [fromLines_passed f path text passed] at refused
      have := ih refused
      omega
    · rw [fromLines_client f path text held] at refused
      cases read : f.client row with
      | error e =>
        simp only [read] at refused
        cases refused
        omega
      | ok client =>
        cases further : f.fromLines path (number + 1) false rest with
        | ok clients => simp [read, further, Except.map] at refused
        | error e =>
          simp only [read, further] at refused
          cases refused
          have := ih further
          omega

/-- Lines that hold nothing make no clients. -/
theorem fromLines_idle (idle : ∀ line ∈ lines, isIdle line = true) :
    f.fromLines path number pending lines = .ok [] := by
  induction lines generalizing number pending with
  | nil => rfl
  | cons line rest ih =>
    have later := fun line hl => idle line (List.mem_cons_of_mem _ hl)
    have first := idle line List.mem_cons_self
    cases text : row? line with
    | none => simp [isIdle, text] at first
    | some row =>
      have skipped : isSkipped row = true := by simpa [isIdle, text] using first
      rw [fromLines_passed f path text (by rw [skipped]; rfl), ih later]

/-- Where a line comes to stand if so many lines are put in after so many others. -/
def movedDown (before inserted line : Nat) : Nat := if before < line then line + inserted else line

/-- **Lines that hold nothing only move other lines down.** -/
theorem fromLines_inserted {idle : List (List UInt8)} (holdNothing : ∀ line ∈ idle, isIdle line = true)
    (more : List (List UInt8)) : f.fromLines path 1 pending (lines ++ idle ++ more) =
      (f.fromLines path 1 pending (lines ++ more)).mapError
        (LoadError.mapLine (movedDown lines.length idle.length)) := by
  have insignificant : idle.any isSignificant = false := by
    rw [List.any_eq_false]
    intro line hl
    simp [isSignificant_of_isIdle (holdNothing line hl)]
  have between : f.fromLines path 1 pending (lines ++ (idle ++ more)) = _ :=
    fromLines_append f path (idle ++ more)
  have without : f.fromLines path 1 pending (lines ++ more) = _ := fromLines_append f path more
  rw [List.append_assoc, between, without]
  cases before : f.fromLines path 1 pending lines with
  | error e =>
    cases e with
    | invalidRow named reason =>
      have := line_of_fromLines f path before
      have early : movedDown lines.length idle.length named = named := if_neg (by omega)
      simp [Except.mapError, LoadError.mapLine, early]
    | unreadable path fault reason => rfl
    | invalidUpdate fault => rfl
  | ok clients =>
    simp only
    rw [fromLines_append, fromLines_idle f path holdNothing, insignificant, Bool.not_false, Bool.and_true,
      fromLines_add]
    cases after : f.fromLines path (1 + lines.length) (pending && !lines.any isSignificant) more with
    | ok more => rfl
    | error e =>
      cases e with
      | invalidRow named reason =>
        have := line_of_fromLines f path after
        have late : movedDown lines.length idle.length named = named + idle.length := if_pos (by omega)
        simp [Except.mapError, Except.map, LoadError.mapLine, late]
      | unreadable path fault reason => rfl
      | invalidUpdate fault => rfl

/-! ## Whole files -/

/-- What holds of the files that are read in a format, for all texts of which the first ends with a
line. -/
structure Compositional (f : RowFormat) (path : String) : Prop where
  /-- The first line of a file is line one: if no header is to come, what is wrong with its row is told with
  this number. -/
  first : ∀ a line rest row fault, f.header = false → split a = line :: rest → row? line = some row →
    isSkipped row = false → f.client row = .error fault →
      f.read path a = .error (.invalidRow 1 fault.message)
  /-- What is wrong with a text is wrong with every text that starts with it. -/
  stops : ∀ a b e, Ended a → f.read path a = .error e → f.read path (a ++ b) = .error e
  /-- After a text that was read the rest is read as a file of its own, in which no header is to come if
  there was one before.  Only its lines stand further down. -/
  continues : ∀ a b clients, Ended a → f.read path a = .ok clients →
    f.read path (a ++ b) =
      match (f.after a).read path b with
      | .ok more => .ok (clients ++ more)
      | .error e => .error (e.mapLine (· + (split a).length))
  /-- Blank lines and comments that are put in between lines, or at the end, make no difference but that
  the lines after them stand further down. -/
  inserted : ∀ a idle b, Ended a → Ended idle ∨ b = [] → (∀ line ∈ split idle, isIdle line = true) →
    f.read path (a ++ idle ++ b) =
      (f.read path (a ++ b)).mapError
        (LoadError.mapLine (movedDown (split a).length (split idle).length))
  /-- Carriage returns before line feeds make no difference. -/
  returned : ∀ a b, Returned a b → f.read path b = f.read path a

theorem row?_of_sameUpToReturn {line' : List UInt8} (same : SameUpToReturn line line') :
    row? line = row? line' := by
  rcases same with rfl | ⟨body, rfl, rfl⟩
  · rfl
  · have ending : Text.Utf8.text? [Text.Lines.lineFeed] = some ['\n'] := by
      rw [Text.Utf8.text?_ascii [] (by decide), Text.Utf8.text?_nil]
      rfl
    have endings : Text.Utf8.text? [Text.Lines.carriageReturn, Text.Lines.lineFeed] =
        some ['\r', '\n'] := by
      rw [Text.Utf8.text?_ascii _ (by decide), ending]
      rfl
    rw [row?, row?, Text.Utf8.text?_append body [] (by decide),
      Text.Utf8.text?_append body [Text.Lines.lineFeed] (by decide), ending, endings]
    cases Text.Utf8.text? body with
    | none => rfl
    | some cs =>
      show some (trim (cs ++ ['\n'])) = some (trim (cs ++ ['\r', '\n']))
      rw [Text.trim_append_blank cs (by decide), Text.trim_append_blank cs (by decide)]

theorem map_row?_of_returned {a b : List UInt8} (h : Returned a b) :
    (split a).map row? = (split b).map row? := by
  have lines := h.split
  generalize split a = as, split b = bs at lines
  induction lines with
  | nil => rfl
  | cons same _ ih => rw [List.map_cons, List.map_cons, row?_of_sameUpToReturn same, ih]

/-- Whether a header is announced shows only at the beginning of a file. -/
theorem fromLines_setHeader (header : Bool) : fromLines { f with header := header } path number pending lines =
    f.fromLines path number pending lines := by
  induction lines generalizing number pending with
  | nil => rfl
  | cons line rest ih =>
    rcases line_cases pending line with untext | ⟨row, text, passed⟩ | ⟨row, text, held, rfl⟩
    · rw [fromLines_notText _ path untext, fromLines_notText f path untext]
    · rw [fromLines_passed _ path text passed, fromLines_passed f path text passed, ih]
    · rw [fromLines_client _ path text held, fromLines_client f path text held, ih]
      rfl

theorem read_after (a b : List UInt8) : (f.after a).read path b =
    f.fromLines path 1 (f.header && !(split a).any isSignificant) (split b) :=
  f.fromLines_setHeader path _

/-- **Files of rows are read part by part**, with exact line numbers. -/
theorem read_compositional : Compositional f path := by
  constructor
  case first =>
    intro a line rest row fault noHeader lines text held faulty
    rw [read, noHeader, lines, fromLines_client f path text held, faulty]
  case stops =>
    intro a b e ended refused
    rw [read] at refused ⊢
    rw [Text.Lines.split_append ended, fromLines_append, refused]
  case continues =>
    intro a b clients ended before
    rw [read] at before ⊢
    rw [Text.Lines.split_append ended, fromLines_append, before, read_after]
    simp only
    rw [fromLines_add]
    cases f.fromLines path 1 (f.header && !(split a).any isSignificant) (split b) <;> rfl
  case inserted =>
    intro a idle b ended between holdNothing
    have lines : split (a ++ idle ++ b) = split a ++ split idle ++ split b := by
      rcases between with ended' | rfl
      · rw [Text.Lines.split_append (ended.append ended'), Text.Lines.split_append ended]
      · rw [List.append_nil, Text.Lines.split_append ended, Text.Lines.split, List.append_nil]
    rw [read, read, lines, Text.Lines.split_append ended]
    exact fromLines_inserted f path holdNothing (split b)
  case returned =>
    intro a b h
    rw [read, read]
    exact fromLines_congr f path (map_row?_of_returned h).symm

/-- A comment, a client and a blank line. -/
def threeLines : List UInt8 := Text.Utf8.encode "# clients\n1,2,3\n\n".toList

/-- A row whose latitude is no number. -/
def badLatitude : List UInt8 := Text.Utf8.encode "x,2,y\n".toList

/-- The fault of a line is told with line one if the line stands alone, and with line four after three
lines. -/
theorem badLatitude_named :
    (RowFormat.mk ',' false).read "c.csv" badLatitude =
        .error (.invalidRow 1 "invalid latitude 'y': invalid float literal") ∧
      (RowFormat.mk ',' false).read "c.csv" (threeLines ++ badLatitude) =
        .error (.invalidRow 4 "invalid latitude 'y': invalid float literal") := by
  have laws := read_compositional ⟨',', false⟩ "c.csv"
  have alone := laws.first badLatitude badLatitude [] "x,2,y".toList (.badCoordinate "latitude" "y" .malformed)
    rfl (by decide +kernel) (by decide +kernel) rfl rfl
  refine ⟨alone, ?_⟩
  have sound : ((RowFormat.mk ',' false).read "c.csv" threeLines).toBool = true := by decide +kernel
  cases before : (RowFormat.mk ',' false).read "c.csv" threeLines with
  | error e =>
    rw [before] at sound
    cases sound
  | ok clients =>
    have three : (split threeLines).length = 3 := by decide +kernel
    have after : (RowFormat.mk ',' false).after threeLines = ⟨',', false⟩ := rfl
    rw [laws.continues threeLines badLatitude clients (.inr (by decide +kernel)) before, after, alone, three]
    rfl

end RowFormat

end FleetMatch
