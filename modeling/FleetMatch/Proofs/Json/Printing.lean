import FleetMatch.Json.Printer
import FleetMatch.Proofs.Json.Numbers
import FleetMatch.Proofs.Json.Values

/-!
# Written values are read back

What is written for a value is well-formed, stays on one line, and is read as the value again.

* `Storable`: values that can be written without loss, nested only so deep.
* `spelled_escaped` — strings are escaped so that they spell themselves.
* `Written`: what holds of the text of a value; `written_of_storable` — it holds of every storable value.
* `parse_print` — reading the text of a storable value gives the value.
* `Value.kept`: what is kept of any value, where nulls stand for numbers that are not finite; `print_kept`,
  `parse_print_kept` — this is what its text says.
-/

set_option autoImplicit false

namespace FleetMatch.Json

/-! ## Strings -/

section

variable {c : Char} {t s : List Char}

/-- A control is escaped by its code. -/
theorem hexValue?_control (control : c.toNat < 0x20) :
    hexValue? '0' '0' (hexDigit (c.toNat / 16)) (hexDigit c.toNat) = some c.toNat := by
  have all : ∀ n < 0x20, hexValue? '0' '0' (hexDigit (n / 16)) (hexDigit n) = some n := by decide
  exact all _ control

/-- How a character stands in a string. -/
inductive Escaped (c : Char) : List Char → Prop
  | short {e : Char} : shortEscape? e = some c → 0x20 ≤ e.toNat → Escaped c ['\\', e]
  | control : c.toNat < 0x20 →
      Escaped c ['\\', 'u', '0', '0', hexDigit (c.toNat / 16), hexDigit c.toNat]
  | plain : c ≠ '"' → c ≠ '\\' → 0x20 ≤ c.toNat → Escaped c [c]

theorem escaped_escapeChar (c : Char) : Escaped c (escapeChar c) := by
  by_cases short : c ∈ ['"', '\\', '\x08', '\x0c', '\n', '\r', '\t']
  · simp only [List.mem_cons, List.not_mem_nil, or_false] at short
    rcases short with rfl | rfl | rfl | rfl | rfl | rfl | rfl <;> exact .short rfl (by decide)
  · simp only [List.mem_cons, List.not_mem_nil, or_false, not_or] at short
    obtain ⟨quote, backslash, backspace, feed, newline, ret, tab⟩ := short
    unfold escapeChar
    rw [if_neg quote, if_neg backslash, if_neg backspace, if_neg feed, if_neg newline, if_neg ret, if_neg tab]
    by_cases control : c.toNat < 0x20
    · rw [if_pos control]
      exact .control control
    · rw [if_neg control]
      exact .plain quote backslash (by omega)

theorem Escaped.spelled (h : Escaped c t) {rest : List Char} (more : Spelled rest s) :
    Spelled (t ++ rest) (c :: s) := by
  cases h with
  | short escape _ => exact .short escape more
  | control control =>
    have spelled := Spelled.unit (hexValue?_control control) (by omega) more
    rwa [Char.ofNat_toNat] at spelled
  | plain quote backslash printable => exact .plain quote backslash printable more

/-- **A string is escaped so that it spells itself.** -/
theorem spelled_escaped (s : List Char) : Spelled (s.flatMap escapeChar) s := by
  induction s with
  | nil => exact .nil
  | cons c s ih => exact (escaped_escapeChar c).spelled ih

/-- A text without controls, so that it stays on one line. -/
def IsVisible (t : List Char) : Prop := ∀ c ∈ t, 0x20 ≤ c.toNat

theorem IsVisible.nil : IsVisible [] := by
  intro c hc
  cases hc

theorem isVisible_of_all (h : (t.all fun c => decide (0x20 ≤ c.toNat)) = true) : IsVisible t := by
  intro c hc
  exact of_decide_eq_true (List.all_eq_true.1 h c hc)

theorem IsVisible.append (ht : IsVisible t) (hs : IsVisible s) : IsVisible (t ++ s) := by
  intro c hc
  rcases List.mem_append.1 hc with h | h
  · exact ht c h
  · exact hs c h

theorem IsVisible.cons (hc : 0x20 ≤ c.toNat) (hs : IsVisible s) : IsVisible (c :: s) := by
  intro d hd
  rcases List.mem_cons.1 hd with rfl | h
  · exact hc
  · exact hs d h

theorem Escaped.isVisible (h : Escaped c t) : IsVisible t := by
  have hex : ∀ n < 0x20, 0x20 ≤ (hexDigit (n / 16)).toNat ∧ 0x20 ≤ (hexDigit n).toNat := by decide
  intro d hd
  cases h with
  | short _ visible =>
    rcases List.mem_pair.1 hd with rfl | rfl
    · decide
    · exact visible
  | control control =>
    obtain ⟨high, low⟩ := hex _ control
    simp only [List.mem_cons, List.not_mem_nil, or_false] at hd
    rcases hd with rfl | rfl | rfl | rfl | rfl | rfl <;> first | exact high | exact low | decide
  | plain _ _ visible => exact List.mem_singleton.1 hd ▸ visible

theorem isVisible_printString (s : String) : IsVisible (printString s) := by
  refine .cons (by decide) (.append ?_ (.cons (by decide) .nil))
  intro c hc
  obtain ⟨d, -, hd⟩ := List.mem_flatMap.1 hc
  exact (escaped_escapeChar d).isVisible c hd

end

/-! ## Numbers -/

theorem IsDigits.isVisible {t : List Char} (h : ∀ c ∈ t, FleetMatch.Numeral.isDigit c = true) :
    IsVisible t := by
  intro c hc
  have digit := h c hc
  rw [FleetMatch.Numeral.isDigit, Bool.and_eq_true, decide_eq_true_eq] at digit
  have least : ('0' : Char).toNat ≤ c.toNat := digit.1
  exact le_trans (by decide) least

theorem FractionText.isVisible {t ds : List Char} (h : FractionText t ds) : IsVisible t := by
  cases h with
  | absent => exact .nil
  | point digits => exact .cons (by decide) (IsDigits.isVisible digits.2)

theorem ExponentText.isVisible {t : List Char} {e : Option ℤ} (h : ExponentText t e) : IsVisible t := by
  cases h with
  | absent => exact .nil
  | unsigned letter digits =>
    rcases letter with rfl | rfl <;> exact .cons (by decide) (IsDigits.isVisible digits.2)
  | plus letter digits | minus letter digits =>
    rcases letter with rfl | rfl <;>
      exact .cons (by decide) (.cons (by decide) (IsDigits.isVisible digits.2))

theorem NumeralText.isVisible {t : List Char} {n : Numeral} (h : NumeralText t n) : IsVisible t := by
  obtain ⟨whole, fraction, exponent⟩ := h
  refine .append ?_ (.append (IsDigits.isVisible whole.1.2) (.append fraction.isVisible exponent.isVisible))
  cases n.negative
  · exact .nil
  · exact .cons (by decide) .nil

/-! ## Values -/

/-- A value that can be written without loss: numbers are integers of 64 bits or finite, and brackets are
nested at most so deep. -/
inductive Storable : ℕ → Value → Prop
  | null {d : ℕ} : Storable d .null
  | bool {d : ℕ} (b : Bool) : Storable d (.bool b)
  | int {d : ℕ} {n : ℤ} : FleetMatch.Numeral.fits64 n = true → Storable d (.number (.int n))
  | float {d : ℕ} {x : Float} : x.isFinite = true → Storable d (.number (.float x))
  | string {d : ℕ} (s : String) : Storable d (.string s)
  | array {d : ℕ} {items : List Value} : (∀ v ∈ items, Storable d v) → Storable (d + 1) (.array items)
  | object {d : ℕ} {members : List (String × Value)} : (∀ m ∈ members, Storable d m.2) →
      Storable (d + 1) (.object members)

/-- The text of a value is well-formed, stays on one line, and is read as the value. -/
structure Written (d : ℕ) (v : Value) : Prop where
  text : IsText .value v.print
  visible : IsVisible v.print
  read : ∀ rest, Stops rest → Yields (value (.full .nearest) (some d) (v.print ++ rest)) v rest

theorem written_number {d : ℕ} {x : Number} {n : Numeral} (h : NumeralText x.print n)
    (meant : n.number .nearest = .ok x) : Written d (.number x) := by
  have print : (Value.number x).print = x.print := by rw [Value.print]
  constructor <;> rw [print]
  · exact .number h
  · exact h.isVisible
  · intro rest stops
    have read : Yields (value (.full .nearest) (some d) ([] ++ (x.print ++ rest))) (.number x) rest :=
      value_number .nil h (scanNumber_text h meant stops)
    exact read

theorem written_string (d : ℕ) (s : String) : Written d (.string s) := by
  have print : (Value.string s).print = printString s := by rw [Value.print]
  constructor <;> rw [print]
  · exact .string (spelled_escaped s.toList).stringBody
  · exact isVisible_printString s
  · intro rest _
    have read : Yields (value (.full .nearest) (some d) ([] ++ '"' :: (s.toList.flatMap escapeChar ++ '"' :: rest)))
        (.string (String.ofList s.toList)) rest :=
      value_string .nil (stringTail_spelled (spelled_escaped s.toList) rest)
    rw [String.ofList_toList] at read
    rw [printString, enclosed_append]
    exact read

theorem written_int {d : ℕ} {n : ℤ} (fits : FleetMatch.Numeral.fits64 n = true) :
    Written d (.number (.int n)) := by
  obtain ⟨numeral, text, meant⟩ := (integerText_ofInt n).numeral
  exact written_number text (meant fits .nearest)

theorem written_float {d : ℕ} {x : Float} (finite : x.isFinite = true) :
    Written d (.number (.float x)) := by
  obtain ⟨n, text, rfl, fractional, -⟩ := float_text finite
  exact written_number text (number_of_fractional fractional (float?_nearest finite))

/-! ## Items and members -/

variable {d : ℕ}

theorem printItems_cons (v : Value) {vs : List Value} (h : vs ≠ []) :
    printItems (v :: vs) = v.print ++ ',' :: printItems vs := by
  obtain ⟨w, ws, rfl⟩ := List.exists_cons_of_ne_nil h
  rw [printItems.eq_def]

theorem printItems_single (v : Value) : printItems [v] = v.print := by rw [printItems]

/-- Items with commas between them. -/
structure WrittenItems (d : ℕ) (vs : List Value) : Prop where
  text : IsText .items (printItems vs)
  visible : IsVisible (printItems vs)
  read : ∀ rest, ∃ v after more, vs = v :: more ∧
    Yields (value (.full .nearest) (some d) (printItems vs ++ ']' :: rest)) v after ∧
    Yields (itemsTail (.full .nearest) (some d) after) more rest

theorem isText_item {t : List Char} (h : IsText .value t) : IsText .item t := by
  have item := IsText.item .nil h .nil
  rwa [List.append_nil] at item

theorem written_items {vs : List Value} (some : vs ≠ []) (h : ∀ v ∈ vs, Written d v) :
    WrittenItems d vs := by
  induction vs with
  | nil => exact absurd rfl some
  | cons v vs ih =>
    have first := h v List.mem_cons_self
    by_cases last : vs = []
    · subst last
      constructor
      · rw [printItems_single]
        exact .lastItem (isText_item first.text)
      · rw [printItems_single]
        exact first.visible
      · intro rest
        refine ⟨v, ']' :: rest, [], rfl, ?_, ?_⟩
        · rw [printItems_single]
          exact first.read _ (stops_of_mark (.inr (.inl rfl)) rest)
        · have close : Yields (mark ']' ([] ++ ']' :: rest)) .close rest :=
            mark_close .nil (by decide) (by decide)
          exact itemsTail_nil close
    · have more := ih last fun w hw => h w (List.mem_cons_of_mem v hw)
      constructor
      · rw [printItems_cons v last]
        exact .moreItems (isText_item first.text) more.text
      · rw [printItems_cons v last]
        exact .append first.visible (.cons (by decide) more.visible)
      · intro rest
        obtain ⟨w, after, ws, rfl, hw, tail⟩ := more.read rest
        refine ⟨v, ',' :: (printItems (w :: ws) ++ ']' :: rest), w :: ws, rfl, ?_, ?_⟩
        · rw [printItems_cons v last, List.append_assoc]
          exact first.read _ (stops_of_mark (.inl rfl) _)
        · have comma : Yields (mark ']' ([] ++ ',' :: (printItems (w :: ws) ++ ']' :: rest))) .comma
              (printItems (w :: ws) ++ ']' :: rest) := mark_comma .nil ']'
          exact itemsTail_cons comma hw tail

theorem printMembers_single (name : String) (v : Value) :
    printMembers [(name, v)] = printString name ++ ':' :: v.print := by rw [printMembers]

theorem printMembers_cons (name : String) (v : Value) {ms : List (String × Value)} (h : ms ≠ []) :
    printMembers ((name, v) :: ms) = printString name ++ ':' :: v.print ++ ',' :: printMembers ms := by
  obtain ⟨m, ms, rfl⟩ := List.exists_cons_of_ne_nil h
  rw [printMembers.eq_def, List.append_assoc, List.cons_append]

/-- A member without white space. -/
theorem isText_member (name : String) {t : List Char} (h : IsText .value t) :
    IsText .member (printString name ++ ':' :: t) := by
  have member := IsText.member .nil (spelled_escaped name.toList).stringBody .nil (isText_item h)
  have text : [] ++ '"' :: (name.toList.flatMap escapeChar ++ '"' :: ([] ++ ':' :: t)) =
      printString name ++ ':' :: t := by
    rw [printString, enclosed_append]
    rfl
  rwa [text] at member

theorem memberName_printed (name : String) (rest : List Char) :
    Yields (memberName (.full .nearest) (printString name ++ ':' :: rest)) name rest := by
  have read : Yields (memberName (.full .nearest)
      ([] ++ '"' :: (name.toList.flatMap escapeChar ++ '"' :: ([] ++ ':' :: rest))))
      (String.ofList name.toList) rest :=
    memberName_text .nil (stringTail_spelled (spelled_escaped name.toList) _) .nil
  rw [String.ofList_toList] at read
  rw [printString, enclosed_append]
  exact read

/-- Members with commas between them. -/
structure WrittenMembers (d : ℕ) (ms : List (String × Value)) : Prop where
  text : IsText .members (printMembers ms)
  visible : IsVisible (printMembers ms)
  read : ∀ rest, Yields (members (.full .nearest) (some d) (printMembers ms ++ '\x7d' :: rest)) ms rest

theorem written_members {ms : List (String × Value)} (some : ms ≠ []) (h : ∀ m ∈ ms, Written d m.2) :
    WrittenMembers d ms := by
  induction ms with
  | nil => exact absurd rfl some
  | cons m ms ih =>
    obtain ⟨name, v⟩ := m
    have first : Written d v := h _ List.mem_cons_self
    have visible : IsVisible (printString name ++ ':' :: v.print) :=
      .append (isVisible_printString name) (.cons (by decide) first.visible)
    by_cases last : ms = []
    · subst last
      constructor
      · rw [printMembers_single]
        exact .lastMember (isText_member name first.text)
      · rw [printMembers_single]
        exact visible
      · intro rest
        have close : Yields (mark '\x7d' ([] ++ '\x7d' :: rest)) .close rest :=
          mark_close .nil (by decide) (by decide)
        rw [printMembers_single, List.append_assoc, List.cons_append]
        exact members_single (memberName_printed name _)
          (first.read _ (stops_of_mark (.inr (.inr rfl)) rest)) close
    · have more := ih last fun k hk => h k (List.mem_cons_of_mem _ hk)
      constructor
      · rw [printMembers_cons name v last]
        exact .moreMembers (isText_member name first.text) more.text
      · rw [printMembers_cons name v last]
        exact .append visible (.cons (by decide) more.visible)
      · intro rest
        have comma : Yields (mark '\x7d' ([] ++ ',' :: (printMembers ms ++ '\x7d' :: rest))) .comma
            (printMembers ms ++ '\x7d' :: rest) := mark_comma .nil '\x7d'
        rw [printMembers_cons name v last, List.append_assoc, List.append_assoc, List.cons_append,
          List.cons_append]
        exact members_cons (memberName_printed name _) (first.read _ (stops_of_mark (.inl rfl) _)) comma
          (more.read rest)

/-! ## Whole values -/

/-- A text that is read as one word. -/
theorem written_word {v : Value} {c : Char} {letters : List Char} (print : v.print = c :: letters)
    (text : IsText .value (c :: letters)) (visible : IsVisible (c :: letters)) (space : isSpace c = false)
    (bracket : c ≠ '[') (brace : c ≠ '\x7b')
    (read : ∀ rest, Yields (scalar (.full .nearest) c (letters ++ rest)) v rest) : Written d v := by
  constructor <;> rw [print]
  · exact text
  · exact visible
  · intro rest _
    exact value_scalar (skipSpace_cons space _) bracket brace (read rest)

theorem written_emptyArray : Written (d + 1) (.array []) := by
  have print : (Value.array []).print = '[' :: ([] ++ [']']) := by rw [Value.print, printItems]
  constructor <;> rw [print]
  · exact .emptyArray .nil
  · exact .cons (by decide) (.cons (by decide) .nil)
  · intro rest _
    rw [enclosed_append]
    exact value_array (skipSpace_cons (by decide) _) rfl (firstItems_nil (skipSpace_cons (by decide) rest))

theorem written_emptyObject : Written (d + 1) (.object []) := by
  have print : (Value.object []).print = '\x7b' :: ([] ++ ['\x7d']) := by rw [Value.print, printMembers]
  constructor <;> rw [print]
  · exact .emptyObject .nil
  · exact .cons (by decide) (.cons (by decide) .nil)
  · intro rest _
    rw [enclosed_append]
    exact value_object (skipSpace_cons (by decide) _) rfl
      (firstMembers_nil (skipSpace_cons (by decide) rest))

theorem written_array {items : List Value} (some : items ≠ []) (h : ∀ v ∈ items, Written d v) :
    Written (d + 1) (.array items) := by
  have print : (Value.array items).print = '[' :: (printItems items ++ [']']) := by rw [Value.print]
  have written := written_items some h
  constructor <;> rw [print]
  · exact .array written.text
  · exact .cons (by decide) (.append written.visible (.cons (by decide) .nil))
  · intro rest _
    obtain ⟨v, after, more, rfl, first, tail⟩ := written.read rest
    rw [enclosed_append]
    exact value_array (skipSpace_cons (by decide) _) rfl (firstItems_cons first tail)

theorem written_object {ms : List (String × Value)} (some : ms ≠ []) (h : ∀ m ∈ ms, Written d m.2) :
    Written (d + 1) (.object ms) := by
  have print : (Value.object ms).print = '\x7b' :: (printMembers ms ++ ['\x7d']) := by rw [Value.print]
  have written := written_members some h
  constructor <;> rw [print]
  · exact .object written.text
  · exact .cons (by decide) (.append written.visible (.cons (by decide) .nil))
  · intro rest _
    rw [enclosed_append]
    exact value_object (skipSpace_cons (by decide) _) rfl (firstMembers_cons (written.read rest))

/-- **The text of a storable value is well-formed, stays on one line, and is read as the value.** -/
theorem written_of_storable {v : Value} (h : Storable d v) : Written d v := by
  induction h with
  | null =>
    exact written_word (by rw [Value.print]) .null (isVisible_of_all rfl) (by decide) (by decide)
      (by decide) fun _ => ⟨_, rfl⟩
  | bool b =>
    cases b with
    | true =>
      exact written_word (by rw [Value.print]) .yes (isVisible_of_all rfl) (by decide) (by decide)
        (by decide) fun _ => ⟨_, rfl⟩
    | false =>
      exact written_word (by rw [Value.print]) .no (isVisible_of_all rfl) (by decide) (by decide)
        (by decide) fun _ => ⟨_, rfl⟩
  | int fits => exact written_int fits
  | float finite => exact written_float finite
  | string s => exact written_string _ s
  | @array d items _ ih =>
    by_cases none : items = []
    · subst none
      exact written_emptyArray
    · exact written_array none ih
  | @object d ms _ ih =>
    by_cases none : ms = []
    · subst none
      exact written_emptyObject
    · exact written_object none ih

/-- **Reading the text of a storable value gives the value.** -/
theorem parse_print {v : Value} (h : Storable maxDepth v) : parse v.print = .ok v := by
  have read := (written_of_storable h).read [] .nil
  rw [List.append_nil] at read
  show readAll (fun n => value (.full .nearest) (some n)) v.print = .ok v
  exact readAll_text read .nil

/-! ## What is not finite -/

/-- What is kept of a number in its text: one that is not finite leaves a null behind. -/
def Number.kept : Number → Value
  | .int n => .number (.int n)
  | .float x => if x.isFinite then .number (.float x) else .null

theorem Number.print_kept (n : Number) : n.kept.print = n.print := by
  cases n with
  | int n => rw [kept, Value.print]
  | float x =>
    rw [kept]
    split
    · rw [Value.print]
    · rename_i infinite
      have word : Decimal.Layout.json.text x = "null" := by
        rw [Decimal.Layout.text, if_neg infinite]
        rfl
      rw [Value.print, print, word]
      rfl

mutual

/-- What is kept of a value in its text. -/
def Value.kept : Value → Value
  | .null => .null
  | .bool b => .bool b
  | .number n => n.kept
  | .string s => .string s
  | .array items => .array (keptItems items)
  | .object members => .object (keptMembers members)

/-- What is kept of items. -/
def keptItems : List Value → List Value
  | [] => []
  | v :: more => v.kept :: keptItems more

/-- What is kept of members. -/
def keptMembers : List (String × Value) → List (String × Value)
  | [] => []
  | (name, v) :: more => (name, v.kept) :: keptMembers more

end

theorem keptItems_eq_map (items : List Value) : keptItems items = items.map Value.kept := by
  induction items with
  | nil => rw [keptItems, List.map_nil]
  | cons v more ih => rw [keptItems, ih, List.map_cons]

theorem keptMembers_eq_map (members : List (String × Value)) :
    keptMembers members = members.map fun m => (m.1, m.2.kept) := by
  induction members with
  | nil => rw [keptMembers, List.map_nil]
  | cons m more ih => rw [keptMembers, ih, List.map_cons]

mutual

/-- **The text of a value is that of what is kept of it.** -/
theorem print_kept : ∀ v : Value, v.kept.print = v.print
  | .null | .bool _ | .string _ => by rw [Value.kept]
  | .number n => by rw [Value.kept, n.print_kept, Value.print]
  | .array items => by rw [Value.kept, Value.print, Value.print, printItems_kept items]
  | .object members => by rw [Value.kept, Value.print, Value.print, printMembers_kept members]

theorem printItems_kept : ∀ items : List Value, printItems (keptItems items) = printItems items
  | [] => by rw [keptItems]
  | [v] => by rw [keptItems, keptItems, printItems_single, printItems_single, print_kept v]
  | v :: w :: more => by
    have rest := printItems_kept (w :: more)
    rw [keptItems, printItems_cons v (List.cons_ne_nil w more), ← rest, ← print_kept v, printItems_cons]
    rw [keptItems]
    exact List.cons_ne_nil _ _

theorem printMembers_kept : ∀ members : List (String × Value),
    printMembers (keptMembers members) = printMembers members
  | [] => by rw [keptMembers]
  | [(name, v)] => by
    rw [keptMembers, keptMembers, printMembers_single, printMembers_single, print_kept v]
  | (name, v) :: w :: more => by
    have rest := printMembers_kept (w :: more)
    rw [keptMembers, printMembers_cons name v (List.cons_ne_nil w more), ← rest, ← print_kept v,
      printMembers_cons]
    rw [keptMembers]
    exact List.cons_ne_nil _ _

end

theorem kept_ofFloat (x : Float) : (Value.ofFloat x).kept = if x.isFinite then .ofFloat x else .null := by
  rw [Value.ofFloat, Value.kept, Number.kept]

/-- Of every binary64 number enough is kept to be written. -/
theorem storable_kept_float (x : Float) : Storable d (Value.ofFloat x).kept := by
  rw [kept_ofFloat]
  split
  · rename_i finite
    exact .float finite
  · exact .null

/-- Reading the text of any value gives what is kept of it, if this can be stored. -/
theorem parse_print_kept {v : Value} (h : Storable maxDepth v.kept) : parse v.print = .ok v.kept := by
  rw [← print_kept]
  exact parse_print h

end FleetMatch.Json
