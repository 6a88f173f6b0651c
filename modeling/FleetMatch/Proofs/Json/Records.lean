import FleetMatch.Json.Decoder
import FleetMatch.Proofs.Json.Printing

/-!
# Reading records from objects

An object may have its members in any order, with white space around everything, and members that no
field knows.  Reading it comes down to reading its fields one by one: whatever holds after some fields have
been read, and goes on holding with every field that is read, holds in the end.

* `MembersText`: a list of members with their names and the texts of their values.
* `membersText_printed` — what is printed for members has their names and texts.
* `number_text`, `required_text` — numbers, and fields by the readers of their values.
* `oneMember_known`, `oneMember_unknown` — a member that a field knows, and one that is skipped.
* `fromMembers_text` — all members of an object.
* `record_text` — a record that is written as an object.
-/

set_option autoImplicit false

namespace FleetMatch.Json

/-- A text of a member with its name and the text of its value. -/
inductive MemberText : List Char → String × List Char → Prop
  | intro {before letters between gap value after : List Char} {name : String} : IsGap before →
      Spelled letters name.toList → IsGap between → IsGap gap → IsGap after →
      MemberText (before ++ '"' :: (letters ++ '"' :: (between ++ ':' :: (gap ++ (value ++ after)))))
        (name, value)

/-- A text of one or more members, with their names and the texts of their values. -/
inductive MembersText : List Char → List (String × List Char) → Prop
  | single {t : List Char} {m : String × List Char} : MemberText t m → MembersText t [m]
  | cons {t more : List Char} {m : String × List Char} {ms : List (String × List Char)} :
      MemberText t m → MembersText more ms → MembersText (t ++ ',' :: more) (m :: ms)

/-- What is printed for members are the names and the printed values. -/
theorem membersText_printed {ms : List (String × Value)} (some : ms ≠ []) :
    MembersText (printMembers ms) (ms.map fun m => (m.1, m.2.print)) := by
  have one : ∀ m : String × Value,
      MemberText (printString m.1 ++ ':' :: m.2.print) (m.1, m.2.print) := by
    intro m
    have text : MemberText ([] ++ '"' :: (m.1.toList.flatMap escapeChar ++ '"' :: ([] ++ ':' ::
        ([] ++ (m.2.print ++ []))))) (m.1, m.2.print) :=
      .intro .nil (spelled_escaped m.1.toList) .nil .nil .nil
    rw [List.nil_append, List.nil_append, List.nil_append, List.append_nil] at text
    rwa [printString, enclosed_append]
  induction ms with
  | nil => exact absurd rfl some
  | cons m ms ih =>
    by_cases last : ms = []
    · subst last
      rw [printMembers_single]
      exact .single (one m)
    · rw [printMembers_cons _ _ last]
      exact .cons (one m) (ih last)

section

variable {σ α : Type} {fields : List (Field σ)} {depth : Nat} {seen : List String} {record : σ}
  {s rest : List Char}

/-! ## Single values -/

/-- A reader that goes by the first character skips white space. -/
theorem dispatch_text {read : (c : Char) → (t : List Char) → Except Fault (Read α (c :: t))} {c : Char}
    {t : List Char} {x : α} (next : skipSpace s = c :: t) (h : Yields (read c t) x rest) :
    Yields (dispatch read s) x rest := by
  obtain ⟨_, h⟩ := h
  rw [dispatch]
  split
  · rename_i empty
    cases next.symm.trans empty
  · rename_i found
    cases next.symm.trans found
    simp only [h]
    exact ⟨_, rfl⟩

/-- A number is read if its value is accepted. -/
theorem number_text {expected : String} {accept : Number → Except Fault α} {gap t : List Char}
    {n : Numeral} {m : Number} {x : α} (hgap : IsGap gap) (h : NumeralText t n)
    (meant : n.number .stepwise = .ok m) (accepted : accept m = .ok x) (stops : Stops rest) :
    Yields (number expected accept (gap ++ (t ++ rest))) x rest := by
  have scanned := scanNumber_text h meant stops
  obtain ⟨c, s, rfl, first⟩ := h.opens
  obtain ⟨space, -⟩ := apart_of_number first
  refine dispatch_text (skipSpace_gap_cons hgap space _) ?_
  rw [if_pos first]
  split
  · rename_i refused
    cases scanned.symm.trans refused
  · rename_i taken
    cases scanned.symm.trans taken
    simp only [accepted]
    exact ⟨_, rfl⟩

/-- A field that must be there is read by the reader of its value. -/
theorem required_text {name : String} {reader : Nat → Reader α} {put : σ → α → σ} {x : α}
    (h : Yields (reader depth s) x rest) :
    Yields ((Field.required name reader put).read depth record s) (put record x) rest := by
  obtain ⟨_, h⟩ := h
  simp only [Field.required, h]
  exact ⟨_, rfl⟩

/-- **A number that is read as binary64** comes out as what its text is taken for. -/
theorem float_reads {gap t : List Char} {x : Float} (hgap : IsGap gap) (h : FloatText .stepwise t x)
    (stops : Stops rest) : Yields (float (gap ++ (t ++ rest))) x rest := by
  obtain ⟨n, text, m, meant, rfl⟩ := h
  exact number_text hgap text meant rfl stops

/-! ## Members -/

theorem name_text {before letters : List Char} {n : String} (hb : IsGap before)
    (h : Spelled letters n.toList) (rest : List Char) :
    Yields (name (before ++ '"' :: (letters ++ '"' :: rest))) n rest := by
  obtain ⟨_, quote⟩ :
      Yields (punctuation '"' (before ++ '"' :: (letters ++ '"' :: rest))) () (letters ++ '"' :: rest) :=
    punctuation_gap hb (by decide)
  obtain ⟨_, tail⟩ : Yields (stringTail (.full .stepwise) (letters ++ '"' :: rest)) n.toList rest :=
    stringTail_spelled h rest
  rw [name, quote]
  simp only [tail, String.ofList_toList]
  exact ⟨_, rfl⟩

/-- A member that a field knows is read by the field, if it has not been seen before. -/
theorem oneMember_known {n : String} {field : Field σ} {before letters between after : List Char}
    {record' : σ} (found : fields.find? (fun field => field.name == n) = some field)
    (fresh : field.name ∉ seen) (hb : IsGap before) (hl : Spelled letters n.toList)
    (hm : IsGap between) (h : Yields (field.read depth record s) record' after) :
    Yields (oneMember fields depth seen record
      (before ++ '"' :: (letters ++ '"' :: (between ++ ':' :: s)))) (field.name :: seen, record') after := by
  obtain ⟨_, hn⟩ := name_text hb hl (between ++ ':' :: s)
  obtain ⟨_, colon⟩ : Yields (punctuation ':' (between ++ ':' :: s)) () s :=
    punctuation_gap hm (by decide)
  obtain ⟨_, h⟩ := h
  have unseen : seen.contains field.name = false := by simpa using fresh
  rw [oneMember, hn]
  simp only [found, unseen, Bool.false_eq_true, if_false, colon, h]
  exact ⟨_, rfl⟩

/-- A member that no field knows is skipped. -/
theorem oneMember_unknown {n : String} {before letters between after : List Char} {v : Value}
    (unknown : fields.find? (fun field => field.name == n) = none) (hb : IsGap before)
    (hl : Spelled letters n.toList) (hm : IsGap between) (h : Yields (value .skipped none s) v after) :
    Yields (oneMember fields depth seen record
      (before ++ '"' :: (letters ++ '"' :: (between ++ ':' :: s)))) (seen, record) after := by
  obtain ⟨_, hn⟩ := name_text hb hl (between ++ ':' :: s)
  obtain ⟨_, colon⟩ : Yields (punctuation ':' (between ++ ':' :: s)) () s :=
    punctuation_gap hm (by decide)
  obtain ⟨_, h⟩ := h
  rw [oneMember, hn]
  simp only [unknown, colon, skipMember, h]
  exact ⟨_, rfl⟩

theorem fromMembers_close {seen' : List String} {record' : σ} {after : List Char}
    (first : Yields (oneMember fields depth seen record s) (seen', record') after)
    (close : Yields (mark '\x7d' after) .close rest)
    (done : complete fields seen' record' = .ok record') :
    Yields (fromMembers fields depth seen record s) record' rest := by
  obtain ⟨_, first⟩ := first
  obtain ⟨_, close⟩ := close
  rw [fromMembers, first]
  simp only [close, done]
  exact ⟨_, rfl⟩

theorem fromMembers_comma {seen' : List String} {record' done : σ} {after following : List Char}
    (first : Yields (oneMember fields depth seen record s) (seen', record') after)
    (comma : Yields (mark '\x7d' after) .comma following)
    (more : Yields (fromMembers fields depth seen' record' following) done rest) :
    Yields (fromMembers fields depth seen record s) done rest := by
  obtain ⟨_, first⟩ := first
  obtain ⟨_, comma⟩ := comma
  obtain ⟨_, more⟩ := more
  rw [fromMembers, first]
  simp only [comma, more]
  exact ⟨_, rfl⟩

/-! ## Objects -/

/-- Some field has this name. -/
def IsKnown (fields : List (Field σ)) (n : String) : Prop := ∃ field ∈ fields, field.name = n

/-- Fields with these values can be read one by one: `Holds` goes on holding of the names that have been
seen and of what has been read. -/
structure Fills (fields : List (Field σ)) (depth : Nat) (ms : List (String × List Char))
    (Holds : List String → σ → Prop) : Prop where
  known : ∀ field ∈ fields, ∀ t, (field.name, t) ∈ ms → ∀ seen record, Holds seen record →
    ∀ gap rest, IsGap gap → Stops rest → ∃ record', Holds (field.name :: seen) record' ∧
      Yields (field.read depth record (gap ++ (t ++ rest))) record' rest
  unknown : ∀ m ∈ ms, ¬IsKnown fields m.1 → IsText .value m.2

variable {ms : List (String × List Char)} {Holds : List String → σ → Prop}

/-- A member is read if a field knows it, and skipped otherwise. -/
theorem oneMember_text {t : List Char} {m : String × List Char} (h : MemberText t m)
    (fills : Fills fields depth ms Holds) (mem : m ∈ ms) (fresh : IsKnown fields m.1 → m.1 ∉ seen)
    (holds : Holds seen record) (stops : Stops rest) :
    ∃ seen' record' gap, IsGap gap ∧ Holds seen' record' ∧
      (∀ n, n ∈ seen' ↔ n ∈ seen ∨ IsKnown fields n ∧ n = m.1) ∧
      Yields (oneMember fields depth seen record (t ++ rest)) (seen', record') (gap ++ rest) := by
  obtain @⟨before, letters, between, gap, value, after, n, hb, hl, hm, hg, ha⟩ := h
  have text : before ++ '"' :: (letters ++ '"' :: (between ++ ':' :: (gap ++ (value ++ after)))) ++ rest =
      before ++ '"' :: (letters ++ '"' :: (between ++ ':' :: (gap ++ (value ++ (after ++ rest))))) := by
    simp only [List.append_assoc, List.cons_append]
  rw [text]
  cases found : fields.find? (fun field => field.name == n) with
  | some field =>
    have member := List.mem_of_find?_eq_some found
    obtain rfl : field.name = n := by simpa using List.find?_some found
    have unseen := fresh ⟨field, member, rfl⟩
    obtain ⟨record', holds', read⟩ :=
      fills.known field member value mem seen record holds gap _ hg (Stops.gap ha stops)
    refine ⟨_, record', after, ha, holds', ?_, oneMember_known found unseen hb hl hm read⟩
    intro k
    rw [List.mem_cons, Or.comm]
    exact or_congr_right ⟨fun e => ⟨⟨field, member, e.symm⟩, e⟩, fun e => e.2⟩
  | none =>
    have unknown : ¬IsKnown fields n := by
      rintro ⟨field, member, e⟩
      exact absurd e (by simpa using List.find?_eq_none.1 found field member)
    obtain ⟨v, hv⟩ := skips_text (fills.unknown _ mem unknown) gap _ hg (Stops.gap ha stops)
    refine ⟨seen, record, after, ha, holds, ?_, oneMember_unknown found hb hl hm hv⟩
    intro k
    refine ⟨Or.inl, ?_⟩
    rintro (seen | ⟨known, rfl⟩)
    · exact seen
    · exact absurd known unknown

/-- If all fields have been seen, then none is missing. -/
theorem complete_of_seen (all : ∀ field ∈ fields, field.name ∈ seen) :
    complete fields seen record = .ok record := by
  have missing : firstMissing? fields seen = none := by
    rw [firstMissing?, Option.map_eq_none_iff, List.find?_eq_none]
    intro field member
    simp [all field member]
  rw [complete, missing]

/-- **Members are read in any order**, and what holds after each of them holds in the end.  Every field
must be there once. -/
theorem fromMembers_text {t : List Char} {ms' : List (String × List Char)} (h : MembersText t ms')
    (fills : Fills fields depth ms Holds) (among : ms' ⊆ ms)
    (once : ms'.Pairwise fun a b => IsKnown fields a.1 → a.1 ≠ b.1)
    (fresh : ∀ m ∈ ms', IsKnown fields m.1 → m.1 ∉ seen) (holds : Holds seen record)
    (all : ∀ field ∈ fields, field.name ∈ seen ∨ ∃ value, (field.name, value) ∈ ms') :
    ∃ seen' record', Holds seen' record' ∧ (∀ field ∈ fields, field.name ∈ seen') ∧
      Yields (fromMembers fields depth seen record (t ++ '\x7d' :: rest)) record' rest := by
  induction h generalizing seen record with
  | @single t m h =>
    obtain ⟨seen', record', gap, hg, holds', seen_iff, read⟩ :=
      oneMember_text h fills (among List.mem_cons_self) (fresh m List.mem_cons_self) holds
        (stops_of_mark (Or.inr (Or.inr rfl)) rest)
    have everything : ∀ field ∈ fields, field.name ∈ seen' := by
      intro field member
      rcases all field member with seen | ⟨value, here⟩
      · exact (seen_iff _).2 (Or.inl seen)
      · have named := congrArg Prod.fst (List.mem_singleton.1 here)
        exact (seen_iff _).2 (Or.inr ⟨⟨field, member, rfl⟩, named⟩)
    exact ⟨seen', record', holds', everything, fromMembers_close read
      (mark_close hg (by decide) (by decide)) (complete_of_seen everything)⟩
  | @cons t more m ms' h _ ih =>
    obtain ⟨seen', record', gap, hg, holds', seen_iff, read⟩ :=
      oneMember_text h fills (among List.mem_cons_self) (fresh m List.mem_cons_self) holds
        (stops_of_mark (Or.inl rfl) (more ++ '\x7d' :: rest))
    obtain ⟨others, once⟩ := List.pairwise_cons.1 once
    obtain ⟨seen'', record'', holds'', everything, yields⟩ := ih
      (fun k hk => among (List.mem_cons_of_mem _ hk)) once
      (by
        intro k hk known seen
        rcases (seen_iff _).1 seen with seen | ⟨-, same⟩
        · exact fresh k (List.mem_cons_of_mem _ hk) known seen
        · exact others k hk (same ▸ known) same.symm)
      holds'
      (by
        intro field member
        rcases all field member with seen | ⟨value, here⟩
        · exact Or.inl ((seen_iff _).2 (Or.inl seen))
        · rcases List.mem_cons.1 here with rfl | later
          · exact Or.inl ((seen_iff _).2 (Or.inr ⟨⟨field, member, rfl⟩, rfl⟩))
          · exact Or.inr ⟨value, later⟩)
    refine ⟨seen'', record'', holds'', everything, ?_⟩
    rw [List.append_assoc]
    exact fromMembers_comma read (mark_comma hg '\x7d') yields

/-- Members start with a quote. -/
theorem MembersText.opens {t : List Char} (h : MembersText t ms) (rest : List Char) :
    ∃ s, skipSpace (t ++ rest) = '"' :: s := by
  have single : ∀ {t m}, MemberText t m → ∀ rest, ∃ s, skipSpace (t ++ rest) = '"' :: s := by
    rintro _ _ ⟨before, -, -, -, -⟩ rest
    rw [List.append_assoc]
    exact ⟨_, skipSpace_gap_cons before (by decide) _⟩
  cases h with
  | single h => exact single h rest
  | cons h _ =>
    rw [List.append_assoc]
    exact single h _

theorem fromObject_of_fromMembers {blank done : σ} {t : List Char} (next : skipSpace s = '"' :: t)
    (h : Yields (fromMembers fields depth [] blank s) done rest) :
    Yields (fromObject fields depth blank s) done rest := by
  rw [fromObject]
  split
  · rename_i empty
    cases next.symm.trans empty
  · rename_i found
    cases next.symm.trans found
    rw [if_neg (by decide)]
    exact h

/-- **A record is read from an object** with all of its fields, whatever other members the object has. -/
theorem record_text {title : String} {blank : σ} {t : List Char} (h : MembersText t ms)
    (fills : Fills fields depth ms Holds)
    (once : ms.Pairwise fun a b => IsKnown fields a.1 → a.1 ≠ b.1) (holds : Holds [] blank)
    (all : ∀ field ∈ fields, ∃ value, (field.name, value) ∈ ms) (rest : List Char) :
    ∃ seen record, Holds seen record ∧ (∀ field ∈ fields, field.name ∈ seen) ∧
      Yields (Json.record title fields blank (depth + 1) ('\x7b' :: (t ++ '\x7d' :: rest))) record rest := by
  obtain ⟨seen, record, holds', everything, members⟩ := fromMembers_text h fills (List.Subset.refl ms) once
    (fun m _ _ => List.not_mem_nil) holds (fun field member => Or.inr (all field member))
  refine ⟨seen, record, holds', everything, ?_⟩
  obtain ⟨s, next⟩ := h.opens ('\x7d' :: rest)
  obtain ⟨_, object⟩ := fromObject_of_fromMembers next members
  refine dispatch_text (skipSpace_cons (by decide) _) ?_
  simp only [object]
  exact ⟨_, rfl⟩

end

end FleetMatch.Json
