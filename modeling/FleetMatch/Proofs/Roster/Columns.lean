import FleetMatch.Proofs.Roster.Files
import Mathlib.Data.List.GetD

/-!
# Columns of a row as it is written

A row is trimmed before it is cut into columns, and every column is trimmed again.  Where the delimiter
is no blank, this changes nothing but the blanks around a column.  A delimiter that is a blank is lost
where it stands before the first other character, and so the columns move up.

* `Columns`: a text and its columns; `columns_iff` — `pieces` finds them.
* `Holds`: the client that some columns hold.
* `client_eq_ok_iff` — the client of a row is the one that its columns hold.
* `holds_trim_iff`, `holds_dropWhile_iff` — what trimming the row does to its columns.
* `Positional`, `read_line` — what is read from one line, told from its columns as they are written.
* `tab_row_not_positional` — a delimiter that is a blank may be lost at the start of a line.
-/

set_option autoImplicit false

namespace FleetMatch

open Text (trim isBlank isAllBlank)

theorem ClientId.parse_trim (cs : List Char) :
    parse (String.ofList (trim cs)) = parse (String.ofList cs) := by
  simp only [parse, String.toList_ofList, Text.trim_trim]

namespace RowFormat

variable {d : Char} {cuts : Nat} {cs lead tail : List Char}

/-! ## Cutting -/

/-- A text and its columns: there is a delimiter between any two of them, and only the last one may hold
delimiters itself, if the text has been cut as often as is allowed. -/
inductive Columns (d : Char) : Nat → List Char → List (List Char) → Prop
  | last {cuts : Nat} {cs : List Char} (whole : cuts = 0 ∨ d ∉ cs) : Columns d cuts cs [cs]
  | cut {cuts : Nat} {column rest : List Char} {columns : List (List Char)} (clear : d ∉ column)
      (further : Columns d cuts rest columns) :
      Columns d (cuts + 1) (column ++ d :: rest) (column :: columns)

theorem pieces_of_not_mem (cuts : Nat) (clear : d ∉ cs) : pieces d cuts cs = [cs] := by
  cases cuts with
  | zero => rfl
  | succ cuts => simp [pieces, clear]

theorem pieces_cut {column : List Char} (clear : d ∉ column) (cuts : Nat) (rest : List Char) :
    pieces d (cuts + 1) (column ++ d :: rest) = column :: pieces d cuts rest := by
  have different : ∀ c ∈ column, (c != d) = true := by
    intro c hc
    rw [bne_iff_ne]
    rintro rfl
    exact clear hc
  have before : (column ++ d :: rest).takeWhile (· != d) = column := by
    rw [List.takeWhile_append_of_pos different, List.takeWhile_cons_of_neg (by simp), List.append_nil]
  have after : (column ++ d :: rest).dropWhile (· != d) = d :: rest := by
    rw [List.dropWhile_append_of_pos different, List.dropWhile_cons_of_neg (by simp)]
  conv_lhs => unfold pieces
  rw [if_pos (by simp), before, after]
  rfl

theorem columns_pieces (d : Char) (cuts : Nat) (cs : List Char) :
    Columns d cuts cs (pieces d cuts cs) := by
  induction cuts generalizing cs with
  | zero => exact .last (.inl rfl)
  | succ cuts ih =>
    by_cases held : d ∈ cs
    · obtain ⟨column, rest, rfl, clear⟩ := List.eq_append_cons_of_mem held
      rw [pieces_cut clear]
      exact .cut clear (ih rest)
    · rw [pieces_of_not_mem _ held]
      exact .last (.inr held)

/-- The columns of a text are determined by it. -/
theorem columns_iff {columns : List (List Char)} :
    Columns d cuts cs columns ↔ columns = pieces d cuts cs := by
  constructor
  · intro h
    induction h with
    | @last cuts cs whole =>
      rcases whole with rfl | clear
      · rfl
      · exact (pieces_of_not_mem cuts clear).symm
    | cut clear _ ih => rw [pieces_cut clear, ih]
  · rintro rfl
    exact columns_pieces d cuts cs

/-! ## Blanks around a row -/

theorem map_trim_pieces_of_blank (d : Char) (cuts : Nat) (blank : isAllBlank cs = true) :
    ∃ n, (pieces d cuts cs).map trim = List.replicate n [] := by
  have empty := Text.trim_eq_nil_iff.2 blank
  induction cuts generalizing cs with
  | zero => exact ⟨1, by simp [pieces, empty]⟩
  | succ cuts ih =>
    by_cases held : d ∈ cs
    · obtain ⟨column, rest, rfl, clear⟩ := List.eq_append_cons_of_mem held
      obtain ⟨blankColumn, blankRest⟩ := Text.isAllBlank_parts blank
      obtain ⟨n, further⟩ := ih blankRest (Text.trim_eq_nil_iff.2 blankRest)
      refine ⟨n + 1, ?_⟩
      rw [pieces_cut clear, List.map_cons, further, Text.trim_eq_nil_iff.2 blankColumn]
      rfl
    · exact ⟨1, by simp [pieces_of_not_mem _ held, empty]⟩

/-- Blanks after a row make at most columns without anything in them. -/
theorem map_trim_pieces_append (d : Char) (cuts : Nat) (cs : List Char)
    (blank : isAllBlank tail = true) :
    ∃ n, (pieces d cuts (cs ++ tail)).map trim =
      (pieces d cuts cs).map trim ++ List.replicate n [] := by
  induction cuts generalizing cs with
  | zero => exact ⟨0, by simp [pieces, Text.trim_append_blank cs blank]⟩
  | succ cuts ih =>
    by_cases held : d ∈ cs
    · obtain ⟨column, rest, rfl, clear⟩ := List.eq_append_cons_of_mem held
      obtain ⟨n, further⟩ := ih rest
      refine ⟨n, ?_⟩
      rw [List.append_assoc, List.cons_append, pieces_cut clear, pieces_cut clear, List.map_cons, further]
      rfl
    · by_cases later : d ∈ tail
      · obtain ⟨before, after, rfl, clear⟩ := List.eq_append_cons_of_mem later
        obtain ⟨blankBefore, blankAfter⟩ := Text.isAllBlank_parts blank
        obtain ⟨n, empty⟩ := map_trim_pieces_of_blank d cuts blankAfter
        refine ⟨n, ?_⟩
        have clear' : d ∉ cs ++ before := fun h => (List.mem_append.1 h).elim held clear
        rw [← List.append_assoc, pieces_cut clear', List.map_cons, empty, pieces_of_not_mem _ held,
          Text.trim_append_blank cs blankBefore]
        rfl
      · have clear' : d ∉ cs ++ tail := fun h => (List.mem_append.1 h).elim held later
        refine ⟨0, ?_⟩
        rw [pieces_of_not_mem _ clear', pieces_of_not_mem _ held, List.map_singleton, List.map_singleton,
          Text.trim_append_blank cs blank]
        rfl

/-- Blanks before a row belong to its first column, if there is no delimiter among them. -/
theorem map_trim_pieces_prepend (cuts : Nat) (cs : List Char) (blank : isAllBlank lead = true)
    (clear : d ∉ lead) :
    (pieces d cuts (lead ++ cs)).map trim = (pieces d cuts cs).map trim := by
  by_cases held : d ∈ cs
  · cases cuts with
    | zero => simp [pieces, Text.trim_blank_append cs blank]
    | succ cuts =>
      obtain ⟨column, rest, rfl, clear'⟩ := List.eq_append_cons_of_mem held
      have longer : d ∉ lead ++ column := fun h => (List.mem_append.1 h).elim clear clear'
      rw [← List.append_assoc, pieces_cut longer, pieces_cut clear', List.map_cons, List.map_cons,
        Text.trim_blank_append column blank]
  · have longer : d ∉ lead ++ cs := fun h => (List.mem_append.1 h).elim clear held
    rw [pieces_of_not_mem _ longer, pieces_of_not_mem _ held, List.map_singleton, List.map_singleton,
      Text.trim_blank_append cs blank]

/-! ## The client of some columns -/

/-- The columns hold a client: an identifier that is not blank, two numbers and, if there is a fourth
column, a payload.  Blanks around a column do not count. -/
def Holds (columns : List (List Char)) (client : Client) : Prop :=
  ∃ id lon lat rest x y, columns = id :: lon :: lat :: rest ∧ isAllBlank id = false ∧
    Decimal.Literal.read (trim lon) = .ok x ∧ Decimal.Literal.read (trim lat) = .ok y ∧
      client = ⟨ClientId.parse (String.ofList id), ⟨x, y⟩, Text.Utf8.encode (trim (rest.headD []))⟩

variable {columns : List (List Char)} {client : Client}

/-- A column that is missing is as good as one without anything in it, and this one is neither an
identifier nor a number. -/
theorem holds_iff_getD : Holds columns client ↔
    isAllBlank (columns.getD 0 []) = false ∧ ∃ x y,
      Decimal.Literal.read (trim (columns.getD 1 [])) = .ok x ∧
      Decimal.Literal.read (trim (columns.getD 2 [])) = .ok y ∧
      client = ⟨ClientId.parse (String.ofList (columns.getD 0 [])), ⟨x, y⟩,
        Text.Utf8.encode (trim (columns.getD 3 []))⟩ := by
  constructor
  · rintro ⟨id, lon, lat, rest, x, y, rfl, named, hx, hy, rfl⟩
    refine ⟨named, x, y, hx, hy, ?_⟩
    cases rest <;> rfl
  · rintro ⟨named, x, y, hx, hy, rfl⟩
    rcases columns with _ | ⟨id, _ | ⟨lon, _ | ⟨lat, rest⟩⟩⟩
    · cases named
    · cases hx
    · cases hy
    · refine ⟨id, lon, lat, rest, x, y, rfl, named, hx, hy, ?_⟩
      cases rest <;> rfl

theorem getD_map_trim (columns : List (List Char)) (i : Nat) :
    (columns.map trim).getD i [] = trim (columns.getD i []) := List.getD_map columns [] trim

theorem getD_append_empty (columns : List (List Char)) (n i : Nat) :
    (columns ++ List.replicate n []).getD i [] = columns.getD i [] := by
  by_cases held : i < columns.length
  · exact List.getD_append columns _ [] i held
  · have late := Nat.le_of_not_lt held
    rw [List.getD_append_right columns _ [] i late, List.getD_eq_default columns [] late,
      List.getD_eq_getElem?_getD, List.getElem?_getD_replicate_default_eq]

theorem holds_map_trim_iff : Holds (columns.map trim) client ↔ Holds columns client := by
  simp only [holds_iff_getD, getD_map_trim, Text.isAllBlank_trim, Text.trim_trim, ClientId.parse_trim]

theorem holds_append_empty_iff (n : Nat) :
    Holds (columns ++ List.replicate n []) client ↔ Holds columns client := by
  simp only [holds_iff_getD, getD_append_empty]

/-- What the columns of a row hold, once the blanks around them are gone. -/
theorem holds_of_trimmed {id lon lat : List Char} {rest : List (List Char)}
    (trimmed : ∀ column ∈ id :: lon :: lat :: rest, trim column = column) :
    Holds (id :: lon :: lat :: rest) client ↔ id.isEmpty = false ∧ ∃ x y,
      Decimal.Literal.read lon = .ok x ∧ Decimal.Literal.read lat = .ok y ∧
      client = ⟨ClientId.parse (String.ofList id), ⟨x, y⟩, Text.Utf8.encode (rest.headD [])⟩ := by
  have named : isAllBlank id = id.isEmpty := by
    rw [Bool.eq_iff_iff, ← Text.trim_eq_nil_iff, trimmed id (by simp), List.isEmpty_iff]
  have payload : trim ((id :: lon :: lat :: rest).getD 3 []) = rest.headD [] := by
    cases rest with
    | nil => rfl
    | cons payload rest => exact trimmed payload (by simp)
  rw [holds_iff_getD, payload]
  simp only [List.getD_cons_zero, List.getD_cons_succ, named, trimmed lon (by simp),
    trimmed lat (by simp)]

/-- **The client of a row is the one that its columns hold.** -/
theorem client_eq_ok_iff (f : RowFormat) (row : List Char) :
    f.client row = .ok client ↔ Holds (pieces f.delimiter 3 row) client := by
  rw [← holds_map_trim_iff]
  have trimmed : ∀ column ∈ f.columns row, trim column = column := by
    intro column hc
    obtain ⟨piece, -, rfl⟩ := List.mem_map.1 hc
    exact Text.trim_trim piece
  show f.client row = .ok client ↔ Holds (f.columns row) client
  unfold RowFormat.client
  split
  · rename_i id lon lat rest columns
    rw [columns] at trimmed ⊢
    rw [holds_of_trimmed trimmed]
    cases empty : id.isEmpty with
    | true => simp
    | false =>
      cases hx : Decimal.Literal.read lon with
      | error e => simp [coordinate, hx]
      | ok x =>
        cases hy : Decimal.Literal.read lat with
        | error e => simp [coordinate, hx, hy]
        | ok y => simp [coordinate, hx, hy, eq_comm]
  · rename_i short
    constructor
    · nofun
    · rintro ⟨id, lon, lat, rest, x, y, columns, -⟩
      exact absurd columns (short id lon lat rest)

/-! ## Rows as they are written -/

variable {text : List Char}

/-- Trimming a row does to its columns what taking the blanks off its start does. -/
theorem holds_dropWhile_iff (d : Char) (text : List Char) :
    Holds (pieces d 3 (trim text)) client ↔ Holds (pieces d 3 (text.dropWhile isBlank)) client := by
  obtain ⟨tail, blank, parts⟩ := Text.exists_trim text
  obtain ⟨n, more⟩ := map_trim_pieces_append d 3 (trim text) blank
  have whole : Holds (pieces d 3 (trim text ++ tail)) client ↔ Holds (pieces d 3 (trim text)) client := by
    rw [← holds_map_trim_iff, more, holds_append_empty_iff, holds_map_trim_iff]
  rw [parts, whole]

/-- Blanks without a delimiter among them do not count at the start of a row either. -/
theorem holds_trim_iff (clear : d ∉ text.takeWhile isBlank) :
    Holds (pieces d 3 (trim text)) client ↔ Holds (pieces d 3 text) client := by
  have same := map_trim_pieces_prepend 3 (text.dropWhile isBlank) (Text.isAllBlank_takeWhile text) clear
  rw [List.takeWhile_append_dropWhile] at same
  rw [holds_dropWhile_iff, ← holds_map_trim_iff, ← same, holds_map_trim_iff]

/-- A row with a delimiter among the blanks at its start has no identifier. -/
theorem not_holds_of_mem (lost : d ∈ text.takeWhile isBlank) :
    ¬ Holds (pieces d 3 text) client := by
  have blank := Text.isAllBlank_takeWhile text
  obtain ⟨before, after, start, clear⟩ := List.eq_append_cons_of_mem lost
  rw [start] at blank
  obtain ⟨blankBefore, -⟩ := Text.isAllBlank_parts blank
  have whole : text = before ++ d :: (after ++ text.dropWhile isBlank) := by
    conv_lhs => rw [← List.takeWhile_append_dropWhile (p := isBlank) (l := text), start]
    simp
  rw [whole, pieces_cut clear]
  rintro ⟨id, lon, lat, rest, x, y, columns, named, -⟩
  obtain ⟨rfl, -⟩ := List.cons.inj columns
  simp [blankBefore] at named

/-- What is read from a line, told from a text: the client that the columns of the text hold, or that
the row is not one. -/
structure Positional (d : Char) (written : List Char) (outcome : Except LoadError Roster) : Prop where
  accepted_iff : ∀ client, outcome = .ok [client] ↔
    ∃ columns, Columns d 3 written columns ∧ Holds columns client
  refused : (∀ client, outcome ≠ .ok [client]) → ∃ reason, outcome = .error (.invalidRow 1 reason)

variable {line : List UInt8}

/-- A file of one line is what the row of the line is. -/
theorem read_one (f : RowFormat) (path : String) (headless : f.header = false)
    (unbroken : Text.Lines.lineFeed ∉ line) (decoded : Text.Utf8.decode line = .ok text)
    (significant : isSkipped (trim text) = false) :
    f.read path line =
      match f.client (trim text) with
      | .error e => .error (.invalidRow 1 e.message)
      | .ok client => .ok [client] := by
  have nonempty : line ≠ [] := by
    rintro rfl
    rw [Text.Utf8.decode, Text.Utf8.decodeFrom] at decoded
    cases decoded
    simp [isSkipped, trim, Text.trimEnd] at significant
  have row : row? line = some (trim text) := by
    rw [row?, Text.Utf8.text?, decoded]
    rfl
  rw [read, headless, Text.Lines.split_single unbroken nonempty, fromLines_client f path row significant]
  cases f.client (trim text) <;> rfl

theorem positional_of_holds_iff {outcome : Except LoadError Roster} {written : List Char}
    (f : RowFormat) {row : List Char} (read : outcome =
      match f.client row with
      | .error e => .error (.invalidRow 1 e.message)
      | .ok client => .ok [client])
    (same : ∀ client, Holds (pieces f.delimiter 3 row) client ↔
      Holds (pieces f.delimiter 3 written) client) : Positional f.delimiter written outcome := by
  have written_iff : ∀ client, f.client row = .ok client ↔
      ∃ columns, Columns f.delimiter 3 written columns ∧ Holds columns client := by
    intro client
    rw [client_eq_ok_iff, same]
    simp only [columns_iff, exists_eq_left]
  constructor
  · intro client
    rw [← written_iff, read]
    cases f.client row <;> simp
  · intro never
    rw [read] at never ⊢
    cases found : f.client row with
    | error e => exact ⟨e.message, rfl⟩
    | ok client => exact absurd (by rw [found]) (never client)

/-- **What is read from a line**, for every delimiter: exactly what its columns hold as they are written
after the blanks at its start, and so exactly what they hold as they are written if no delimiter stands
among these blanks. -/
theorem read_line (d : Char) (path : String) {line : List UInt8} {text : List Char}
    (unbroken : Text.Lines.lineFeed ∉ line) (decoded : Text.Utf8.decode line = .ok text)
    (significant : isSkipped (trim text) = false) :
    Positional d (text.dropWhile isBlank) ((RowFormat.mk d false).read path line) ∧
      (d ∉ text.takeWhile isBlank → Positional d text ((RowFormat.mk d false).read path line)) := by
  have read := read_one (RowFormat.mk d false) path rfl unbroken decoded significant
  constructor
  · exact positional_of_holds_iff (RowFormat.mk d false) read fun _ => holds_dropWhile_iff d text
  · intro clear
    exact positional_of_holds_iff (RowFormat.mk d false) read fun _ => holds_trim_iff clear

/-! ## Tabs -/

/-- A line whose columns are separated by tabs, and whose first column is empty. -/
def shiftedLine : List UInt8 := Text.Utf8.encode "\t1\t2\t3".toList

theorem decode_shiftedLine : Text.Utf8.decode shiftedLine = .ok "\t1\t2\t3".toList := by
  decide +kernel

/-- The columns of this line are read one place too far to the left. -/
theorem shiftedLine_read : Text.Lines.lineFeed ∉ shiftedLine ∧
    Positional '\t' "1\t2\t3".toList ((RowFormat.mk '\t' false).read "clients.tsv" shiftedLine) := by
  have unbroken : Text.Lines.lineFeed ∉ shiftedLine := by decide
  exact ⟨unbroken, (read_line '\t' "clients.tsv" unbroken decode_shiftedLine (by decide)).1⟩

/-- Delimiters that are blanks are lost at the start of a line. -/
theorem tab_row_not_positional : ¬ ∀ (d : Char) (path : String) (line : List UInt8) (text : List Char),
    Text.Lines.lineFeed ∉ line → Text.Utf8.decode line = .ok text → isSkipped (trim text) = false →
      Positional d text ((RowFormat.mk d false).read path line) := by
  intro positional
  have unbroken : Text.Lines.lineFeed ∉ shiftedLine := by decide
  have significant : isSkipped (trim "\t1\t2\t3".toList) = false := by decide
  have told := positional '\t' "clients.tsv" shiftedLine _ unbroken decode_shiftedLine significant
  have read := read_one (RowFormat.mk '\t' false) "clients.tsv" rfl unbroken decode_shiftedLine significant
  have accepted : ((RowFormat.mk '\t' false).client (trim "\t1\t2\t3".toList)).toOption.isSome = true := by
    decide +kernel
  cases found : (RowFormat.mk '\t' false).client (trim "\t1\t2\t3".toList) with
  | error e =>
    rw [found] at accepted
    cases accepted
  | ok client =>
    rw [found] at read
    obtain ⟨columns, cut, held⟩ := (told.accepted_iff client).1 read
    rw [columns_iff.1 cut] at held
    exact not_holds_of_mem (by decide) held

end RowFormat

end FleetMatch
