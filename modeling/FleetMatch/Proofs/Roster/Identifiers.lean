import FleetMatch.Proofs.Decimal.Digits
import FleetMatch.Proofs.Json.Grammar
import FleetMatch.Proofs.Roster.Check
import FleetMatch.Proofs.Roster.Columns

/-!
# Texts of identifiers

Many texts stand for one identifier: blanks around a text do not count, and of a numeral only its value
does.  The text of an identifier is one of those that stand for it, so reading and writing settle after the
first reading.

* `Numeral.IsNumeral`: the numerals of an integer; `signed?_eq_some_iff`, `int64?_eq_some_iff` — exactly
  these are read, up to the range of 64 bits.
* `ClientId.SameText`: two texts stand for one identifier; `parse_eq_iff` — this is what reading finds.
* `ClientId.parse_display`, `ClientId.parse_display_parse` — writing and reading again.
* `RowFormat.rows`, `RowFormat.idColumns`: the rows of a file that hold clients, and their first columns.
* `Roster.duplicate_iff` — with finite places, a repeated identifier is all that a roster is refused for.
* `ClientId.normal_form` — all of this, and what it means for files.
-/

set_option autoImplicit false

namespace FleetMatch

open Text (trim isBlank)

/-! ## Numerals -/

namespace Numeral

/-- The text is a decimal numeral of an integer: one or more digits, if wanted after a sign. -/
inductive IsNumeral : List Char → Int → Prop
  | unsigned {ds : List Char} : Json.IsDigits ds → IsNumeral ds (Nat.ofDigitChars 10 ds 0)
  | plus {ds : List Char} : Json.IsDigits ds → IsNumeral ('+' :: ds) (Nat.ofDigitChars 10 ds 0)
  | minus {ds : List Char} : Json.IsDigits ds → IsNumeral ('-' :: ds) (-(Nat.ofDigitChars 10 ds 0 : Int))

variable {cs : List Char} {i : Int} {n : Int64}

theorem nat?_eq_some_iff {k : Nat} :
    nat? cs = some k ↔ Json.IsDigits cs ∧ Nat.ofDigitChars 10 cs 0 = k := by
  rw [nat?, Option.ite_none_left_eq_some, Option.some.injEq, value_eq, Bool.or_eq_true, not_or,
    List.isEmpty_iff, Bool.not_eq_true', Bool.not_eq_false, List.all_eq_true, Json.IsDigits]

theorem map_nat?_eq_some_iff (f : Nat → Int) :
    (nat? cs).map f = some i ↔ Json.IsDigits cs ∧ f (Nat.ofDigitChars 10 cs 0) = i := by
  simp only [Option.map_eq_some_iff, nat?_eq_some_iff]
  constructor
  · rintro ⟨k, ⟨digits, rfl⟩, rfl⟩
    exact ⟨digits, rfl⟩
  · rintro ⟨digits, rfl⟩
    exact ⟨_, ⟨digits, rfl⟩, rfl⟩

/-- A sign is no digit. -/
theorem not_isDigits_sign {sign : Char} (signed : sign = '-' ∨ sign = '+') : ¬ Json.IsDigits (sign :: cs) := by
  rintro ⟨-, digits⟩
  have digit := digits sign List.mem_cons_self
  rcases signed with rfl | rfl <;> exact absurd digit (by decide)

theorem signed?_minus (cs : List Char) : signed? ('-' :: cs) = (nat? cs).map fun k : Nat => -(k : Int) := by
  rw [signed?]
  cases nat? cs <;> rfl

theorem signed?_plus (cs : List Char) : signed? ('+' :: cs) = (nat? cs).map fun k : Nat => (k : Int) := by
  rw [signed?]
  cases nat? cs <;> rfl

theorem signed?_unsigned (minus : ∀ ds, cs ≠ '-' :: ds) (plus : ∀ ds, cs ≠ '+' :: ds) :
    signed? cs = (nat? cs).map fun k : Nat => (k : Int) := by
  rw [signed?]
  · cases nat? cs <;> rfl
  · exact minus
  · exact plus

/-- **Exactly the numerals of an integer are read as this integer.** -/
theorem signed?_eq_some_iff : signed? cs = some i ↔ IsNumeral cs i := by
  constructor
  · intro read
    by_cases minus : ∃ ds, cs = '-' :: ds
    · obtain ⟨ds, rfl⟩ := minus
      rw [signed?_minus, map_nat?_eq_some_iff] at read
      exact read.2 ▸ .minus read.1
    by_cases plus : ∃ ds, cs = '+' :: ds
    · obtain ⟨ds, rfl⟩ := plus
      rw [signed?_plus, map_nat?_eq_some_iff] at read
      exact read.2 ▸ .plus read.1
    · rw [signed?_unsigned (not_exists.1 minus) (not_exists.1 plus), map_nat?_eq_some_iff] at read
      exact read.2 ▸ .unsigned read.1
  · intro numeral
    cases numeral with
    | unsigned digits =>
      have minus : ∀ ds, cs ≠ '-' :: ds := by
        rintro ds rfl
        exact not_isDigits_sign (.inl rfl) digits
      have plus : ∀ ds, cs ≠ '+' :: ds := by
        rintro ds rfl
        exact not_isDigits_sign (.inr rfl) digits
      rw [signed?_unsigned minus plus, map_nat?_eq_some_iff]
      exact ⟨digits, rfl⟩
    | plus digits =>
      rw [signed?_plus, map_nat?_eq_some_iff]
      exact ⟨digits, rfl⟩
    | minus digits =>
      rw [signed?_minus, map_nat?_eq_some_iff]
      exact ⟨digits, rfl⟩

/-- A text is a numeral of one integer only. -/
theorem IsNumeral.unique {j : Int} (h : IsNumeral cs i) (h' : IsNumeral cs j) : i = j :=
  Option.some.inj ((signed?_eq_some_iff.2 h).symm.trans (signed?_eq_some_iff.2 h'))

theorem int64?_eq_some_iff : int64? cs = some n ↔ IsNumeral cs n.toInt := by
  rw [int64?, Option.bind_eq_some_iff, ← signed?_eq_some_iff]
  constructor
  · rintro ⟨i, read, fitted⟩
    obtain ⟨fits, same⟩ := Option.ite_none_right_eq_some.1 fitted
    rw [read, ← Option.some.inj same, toInt_ofInt_of_fits fits]
  · intro read
    exact ⟨n.toInt, read, by rw [if_pos (fitsInt64_toInt n), Int64.ofInt_toInt]⟩

/-- The text that is written for an integer is one of its numerals. -/
theorem isNumeral_ofInt (i : Int) : IsNumeral (ofInt i).toList i := by
  have run (k : Nat) : Json.IsDigits (digits k) := ⟨digits_ne_nil k, fun _ => isDigit_of_mem_digits⟩
  have worth (k : Nat) : Nat.ofDigitChars 10 (digits k) 0 = k := by rw [← value_eq, value_digits]
  unfold ofInt ofNat
  split
  · rename_i negative
    have numeral := IsNumeral.minus (run i.natAbs)
    rw [worth, show -(i.natAbs : Int) = i by omega] at numeral
    rwa [String.toList_ofList]
  · rename_i positive
    have numeral := IsNumeral.unsigned (run i.natAbs)
    rw [worth, show (i.natAbs : Int) = i by omega] at numeral
    rwa [String.toList_ofList]

theorem isBlank_of_isDigit {c : Char} (digit : isDigit c = true) : isBlank c = false := by
  rw [isDigit, Bool.and_eq_true, decide_eq_true_eq, decide_eq_true_eq, Char.le_def, Char.le_def,
    UInt32.le_iff_toNat_le, UInt32.le_iff_toNat_le] at digit
  have low : 48 ≤ c.toNat := digit.1
  have high : c.toNat ≤ 57 := digit.2
  simp only [isBlank, Bool.or_eq_false_iff, Bool.and_eq_false_iff, decide_eq_false_iff_not, beq_eq_false_iff_ne]
  omega

/-- There are no blanks in a numeral. -/
theorem IsNumeral.isBlank_eq_false (h : IsNumeral cs i) : ∀ c ∈ cs, isBlank c = false := by
  cases h with
  | unsigned digits => exact fun c hc => isBlank_of_isDigit (digits.2 c hc)
  | plus digits | minus digits =>
    intro c hc
    rcases List.mem_cons.1 hc with rfl | hc
    · rfl
    · exact isBlank_of_isDigit (digits.2 c hc)

end Numeral

/-! ## Identifiers -/

namespace ClientId

open Numeral (IsNumeral)

/-- Two texts stand for one identifier: without the blanks around them they are equal, or numerals of the
same integer of 64 bits. -/
def SameText (s t : List Char) : Prop :=
  trim s = trim t ∨ ∃ n : Int64, IsNumeral (trim s) n.toInt ∧ IsNumeral (trim t) n.toInt

theorem parse_of_int64? {s : String} {n : Int64} (read : Numeral.int64? (trim s.toList) = some n) :
    parse s = .number n := by
  rw [parse, read]

theorem parse_of_not_int64? {s : String} (read : Numeral.int64? (trim s.toList) = none) :
    parse s = .name (Text.trimmed s) := by
  rw [parse, read]
  rfl

theorem parse_eq_number_iff {s : String} {n : Int64} :
    parse s = .number n ↔ IsNumeral (trim s.toList) n.toInt := by
  rw [← Numeral.int64?_eq_some_iff]
  constructor
  · intro same
    cases read : Numeral.int64? (trim s.toList) with
    | some m =>
      rw [parse_of_int64? read] at same
      rw [number.inj same]
    | none =>
      rw [parse_of_not_int64? read] at same
      cases same
  · exact parse_of_int64?

/-- What is no numeral of an integer of 64 bits is a name. -/
theorem parse_eq_name {s : String} (none : ∀ n : Int64, ¬ IsNumeral (trim s.toList) n.toInt) :
    parse s = .name (Text.trimmed s) :=
  parse_of_not_int64? (Option.eq_none_iff_forall_ne_some.2 fun n read =>
    none n (Numeral.int64?_eq_some_iff.1 read))

/-- A text is read as a number if it is a numeral of one, and as a name otherwise. -/
theorem parse_cases (s : String) :
    (∃ n : Int64, parse s = .number n ∧ IsNumeral (trim s.toList) n.toInt) ∨
      parse s = .name (Text.trimmed s) := by
  by_cases numeral : ∃ n : Int64, IsNumeral (trim s.toList) n.toInt
  · obtain ⟨n, numeral⟩ := numeral
    exact .inl ⟨n, parse_eq_number_iff.2 numeral, numeral⟩
  · exact .inr (parse_eq_name (not_exists.1 numeral))

/-- **Two texts are read as one identifier exactly if they stand for one.** -/
theorem parse_eq_iff (s t : String) : parse s = parse t ↔ SameText s.toList t.toList := by
  constructor
  · intro same
    rcases parse_cases s with ⟨n, read, numeral⟩ | read <;>
      rcases parse_cases t with ⟨m, read', numeral'⟩ | read' <;> rw [read, read'] at same
    · obtain rfl := number.inj same
      exact .inr ⟨n, numeral, numeral'⟩
    · cases same
    · cases same
    · exact .inl (String.ofList_injective (name.inj same))
  · rintro (same | ⟨n, numeral, numeral'⟩)
    · rw [parse, parse, same]
    · rw [parse_eq_number_iff.2 numeral, parse_eq_number_iff.2 numeral']

/-- A number is read back from its text. -/
theorem parse_display (n : Int64) : parse (display (.number n)) = .number n := by
  have numeral := Numeral.isNumeral_ofInt n.toInt
  rw [parse_eq_number_iff, display, Text.trim_of_forall numeral.isBlank_eq_false]
  exact numeral

/-- **Reading settles after the first time.** -/
theorem parse_display_parse (s : String) : parse (parse s).display = parse s := by
  rcases parse_cases s with ⟨n, read, -⟩ | read
  · rw [read, parse_display]
  · calc parse (parse s).display
      _ = parse (Text.trimmed s) := by rw [read, display]
      _ = parse s := by rw [Text.trimmed, parse_trim, String.ofList_toList]

end ClientId

/-! ## Rows -/

namespace RowFormat

variable {f : RowFormat} {path : String} {number : Nat} {pending : Bool} {lines : List (List UInt8)}
  {roster : Roster}

/-- The rows among lines that hold clients or a header: what is text, and neither blank nor a comment. -/
def significantRows (lines : List (List UInt8)) : List (List Char) :=
  (lines.filterMap row?).filter fun row => !isSkipped row

/-- The rows of a file that hold clients. -/
def rows (f : RowFormat) (contents : List UInt8) : List (List Char) :=
  (significantRows (Text.Lines.split contents)).drop (if f.header then 1 else 0)

/-- The column of a row that holds the identifier, as it is written. -/
def idColumn (f : RowFormat) (row : List Char) : List Char := (pieces f.delimiter 3 row).headD []

/-- The columns of a file that hold identifiers. -/
def idColumns (f : RowFormat) (contents : List UInt8) : List (List Char) :=
  (f.rows contents).map f.idColumn

/-- If nothing is wrong with lines, their clients are those of the rows that hold clients. -/
theorem map_client_of_fromLines (read : f.fromLines path number pending lines = .ok roster) :
    ((significantRows lines).drop (if pending then 1 else 0)).map f.client = roster.map .ok := by
  induction lines generalizing number pending roster with
  | nil =>
    cases read
    simp [significantRows]
  | cons line rest ih =>
    rcases line_cases pending line with untext | ⟨row, text, passed⟩ | ⟨row, text, held, rfl⟩
    · rw [fromLines_notText f path untext] at read
      cases read
    · rw [fromLines_passed f path text passed] at read
      have further := ih read
      cases skipped : isSkipped row with
      | true =>
        rw [skipped, Bool.and_true] at further
        simpa [significantRows, text, skipped] using further
      | false =>
        rw [skipped, Bool.false_or] at passed
        simpa [significantRows, text, skipped, passed] using further
    · rw [fromLines_client f path text held] at read
      cases found : f.client row with
      | error e =>
        rw [found] at read
        cases read
      | ok client =>
        simp only [found] at read
        cases further : f.fromLines path (number + 1) false rest with
        | error e =>
          rw [further] at read
          cases read
        | ok clients =>
          rw [further] at read
          cases read
          have := ih further
          simp [significantRows, text, held, found] at this ⊢
          exact this

theorem id_of_client {row : List Char} {client : Client} (read : f.client row = .ok client) :
    client.id = ClientId.parse (String.ofList (f.idColumn row)) := by
  obtain ⟨id, lon, lat, rest, x, y, columns, -, -, -, rfl⟩ := (client_eq_ok_iff f row).1 read
  rw [idColumn, columns]
  rfl

theorem map_id_of_clients {rows : List (List Char)} (clients : rows.map f.client = roster.map .ok) :
    roster.map Client.id = rows.map fun row => ClientId.parse (String.ofList (f.idColumn row)) := by
  induction rows generalizing roster with
  | nil => rw [List.map_eq_nil_iff.1 clients.symm, List.map_nil, List.map_nil]
  | cons row rest ih =>
    cases roster with
    | nil => cases clients
    | cons client further =>
      obtain ⟨read, rest⟩ := List.cons.inj clients
      rw [List.map_cons, List.map_cons, ih rest, id_of_client read]

/-- **The identifiers of a file are what its columns of identifiers are read as.** -/
theorem map_id_of_read {contents : List UInt8} (read : f.read path contents = .ok roster) :
    roster.map Client.id = (f.idColumns contents).map fun column => ClientId.parse (String.ofList column) := by
  rw [idColumns, List.map_map]
  exact map_id_of_clients (map_client_of_fromLines read)

end RowFormat

/-! ## Repeated identifiers -/

/-- A list of values holds one of them twice exactly if two positions are given the same one. -/
theorem not_nodup_map_iff {α β : Type} (g : α → β) (xs : List α) :
    ¬ (xs.map g).Nodup ↔ ∃ (i j : Nat) (a b : α), i < j ∧ xs[i]? = some a ∧ xs[j]? = some b ∧ g a = g b := by
  rw [List.Nodup, List.pairwise_map, List.pairwise_iff_getElem]
  constructor
  · intro repeated
    push Not at repeated
    obtain ⟨i, j, hi, hj, earlier, same⟩ := repeated
    exact ⟨i, j, xs[i], xs[j], earlier, List.getElem?_eq_getElem hi, List.getElem?_eq_getElem hj, same⟩
  · rintro ⟨i, j, a, b, earlier, held, held', same⟩ distinct
    obtain ⟨hi, rfl⟩ := List.getElem?_eq_some_iff.1 held
    obtain ⟨hj, rfl⟩ := List.getElem?_eq_some_iff.1 held'
    exact distinct i j hi hj earlier same

namespace Roster

variable {roster : Roster}

/-- **If all places are finite, a roster is refused exactly if an identifier is repeated in it.** -/
theorem duplicate_iff (finite : ∀ client ∈ roster, client.place.isFinite = true) :
    (∃ id first second, roster.check = .error (.duplicate id first second)) ↔
      ¬ (roster.map Client.id).Nodup := by
  have verdict : Verdict roster roster.check := Checked.nil.verdict roster
  constructor
  · rintro ⟨id, first, second, refused⟩ distinct
    have accepted := verdict.accepted_iff.2 ⟨finite, distinct⟩
    rw [refused] at accepted
    cases accepted
  · intro repeated
    cases outcome : roster.check with
    | ok _ => exact absurd (verdict.accepted_iff.1 outcome).2 repeated
    | error err =>
      obtain ⟨i, client, breaks, -, fault⟩ := verdict.refused err outcome
      cases fault with
      | notFinite infinite =>
        have := finite client (List.mem_of_getElem? breaks.1)
        rw [infinite] at this
        cases this
      | duplicate => exact ⟨_, _, _, rfl⟩

end Roster

theorem Index.buildBy?_eq_error_iff (halving : Halving) (config : IndexConfig) (roster : Roster)
    (e : RosterError) : buildBy? halving config roster = .error e ↔ roster.check = .error e := by
  rw [buildBy?]
  cases roster.check with
  | error _ => simp only [Except.error.injEq]
  | ok _ => exact iff_of_false nofun nofun

/-- **The normal form of identifiers.**  Reading settles after the first time, and a number is read back
from its text.  Two texts are read as one identifier exactly if they stand for one, and a numeral of an
integer that is out of range stays a name.  So a file whose rows can all be read, with finite places, is
refused for a repeated identifier exactly if two of its columns of identifiers stand for one. -/
theorem ClientId.normal_form :
    (∀ s, parse (parse s).display = parse s) ∧
      (∀ n : Int64, parse (display (.number n)) = .number n) ∧
      (∀ s t, parse s = parse t ↔ SameText s.toList t.toList) ∧
      (∀ s i, Numeral.IsNumeral (trim s.toList) i → Numeral.fitsInt64 i = false →
        parse s = .name (Text.trimmed s)) ∧
      ∀ (f : RowFormat) (path : String) (contents : List UInt8) (roster : Roster)
        (halving : Halving) (config : IndexConfig),
        f.read path contents = .ok roster → (∀ client ∈ roster, client.place.isFinite = true) →
          ((∃ id first second, Index.buildBy? halving config roster = .error (.duplicate id first second)) ↔
            ∃ (i j : Nat) (a b : List Char), i < j ∧ (f.idColumns contents)[i]? = some a ∧
              (f.idColumns contents)[j]? = some b ∧ SameText a b) := by
  refine ⟨parse_display_parse, parse_display, parse_eq_iff, ?_, ?_⟩
  · intro s i numeral unfit
    refine parse_eq_name fun n other => ?_
    rw [numeral.unique other, Numeral.fitsInt64_toInt] at unfit
    cases unfit
  · intro f path contents roster halving config read finite
    simp only [Index.buildBy?_eq_error_iff, Roster.duplicate_iff finite, RowFormat.map_id_of_read read,
      not_nodup_map_iff, parse_eq_iff, String.toList_ofList]

/-- A file in which one number is written in two ways. -/
def RowFormat.sevens : List UInt8 := Text.Utf8.encode "7,0,0\n+007 ,2,2\n".toList

theorem RowFormat.read_sevens : ∃ roster, (RowFormat.mk ',' false).read "clients.csv" sevens = .ok roster ∧
    ∀ client ∈ roster, client.place.isFinite = true := by
  have finite : ((RowFormat.mk ',' false).read "clients.csv" sevens).toOption.any
      (fun roster => roster.all fun client => client.place.isFinite) = true := by
    decide +kernel
  obtain ⟨roster, read, finite⟩ := (Option.any_eq_true _ _).1 finite
  exact ⟨roster, Text.Utf8.toOption_eq_some_iff.1 read, List.all_eq_true.1 finite⟩

theorem RowFormat.idColumns_sevens :
    (RowFormat.mk ',' false).idColumns sevens = ["7".toList, "+007 ".toList] := by
  decide +kernel

/-- This file is refused, for its two ways to write a number. -/
theorem ClientId.normal_form_sevens : ∃ roster,
    (RowFormat.mk ',' false).read "clients.csv" RowFormat.sevens = .ok roster ∧
      (∀ client ∈ roster, client.place.isFinite = true) ∧
      (Numeral.IsNumeral (trim "9223372036854775808".toList) 9223372036854775808 ∧
        Numeral.fitsInt64 9223372036854775808 = false ∧
        parse "9223372036854775808" = .name "9223372036854775808") ∧
      ∃ id first second, Index.build? ⟨.euclidean, .ofNat 1⟩ roster = .error (.duplicate id first second) := by
  obtain ⟨-, -, same, far, refused⟩ := normal_form
  obtain ⟨roster, read, finite⟩ := RowFormat.read_sevens
  have numeral : Numeral.IsNumeral (trim "9223372036854775808".toList) 9223372036854775808 :=
    Numeral.signed?_eq_some_iff.1 (by decide +kernel)
  refine ⟨roster, read, finite, ⟨numeral, by decide, far _ _ numeral (by decide)⟩, ?_⟩
  refine (refused _ _ _ _ Halving.sorting _ read finite).2 ⟨0, 1, "7".toList, "+007 ".toList, Nat.one_pos, ?_⟩
  rw [RowFormat.idColumns_sevens]
  exact ⟨rfl, rfl, (same "7" "+007 ").1 (by decide +kernel)⟩

end FleetMatch
