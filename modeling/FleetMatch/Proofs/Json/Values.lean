import FleetMatch.Proofs.Json.Scanner

/-!
# Reading values, part by part

What is read of a value is put together from what is read of its parts, at any depth and with any care.
Whole values follow from these laws by induction on their text.

* `value_scalar`, `value_array`, `value_object` — values by their first character.
* `firstItems_nil`, `firstItems_cons`, `itemsTail_nil`, `itemsTail_cons` — items of arrays.
* `firstMembers_nil`, `firstMembers_cons`, `members_single`, `members_cons` — members of objects.
* `skips_text` — every value of the grammar can be skipped, however deep it is nested.
* `readAll_text` — whole texts.
-/

set_option autoImplicit false

namespace FleetMatch.Json

section

variable {care : Care} {depth inner : Depth} {s t after rest gap : List Char} {v : Value}
  {vs : List Value} {name : String} {ms : List (String × Value)}

/-! ## Values by their first character -/

theorem value_scalar {c : Char} (next : skipSpace s = c :: t) (bracket : c ≠ '[') (brace : c ≠ '\x7b')
    (h : Yields (scalar care c t) v rest) : Yields (value care depth s) v rest := by
  obtain ⟨shorter, h⟩ := h
  rw [value]
  split
  · rename_i empty
    cases next.symm.trans empty
  · rename_i found
    cases next.symm.trans found
    simp only [if_neg bracket, if_neg brace, h]
    exact ⟨_, rfl⟩

theorem value_array (next : skipSpace s = '[' :: t) (enter : depth.enter = .ok inner)
    (h : Yields (firstItems care inner t) vs rest) : Yields (value care depth s) (.array vs) rest := by
  obtain ⟨shorter, h⟩ := h
  rw [value]
  split
  · rename_i empty
    cases next.symm.trans empty
  · rename_i found
    cases next.symm.trans found
    simp only [if_true, enter, h]
    exact ⟨_, rfl⟩

theorem value_object (next : skipSpace s = '\x7b' :: t) (enter : depth.enter = .ok inner)
    (h : Yields (firstMembers care inner t) ms rest) :
    Yields (value care depth s) (.object ms) rest := by
  obtain ⟨shorter, h⟩ := h
  have brace : ('\x7b' : Char) ≠ '[' := by decide
  rw [value]
  split
  · rename_i empty
    cases next.symm.trans empty
  · rename_i found
    cases next.symm.trans found
    simp only [if_neg brace, if_true, enter, h]
    exact ⟨_, rfl⟩

/-- No value starts with a bracket that closes. -/
theorem value_opens (h : Yields (value care depth s) v rest) :
    ∃ c t, skipSpace s = c :: t ∧ c ≠ ']' := by
  obtain ⟨shorter, h⟩ := h
  rw [value] at h
  split at h
  · cases h
  · rename_i c t next
    refine ⟨c, t, next, ?_⟩
    rintro rfl
    cases h

/-! ## Numbers and strings -/

/-- A number starts with a minus or a digit. -/
theorem NumeralText.opens {n : Numeral} (h : NumeralText t n) :
    ∃ c s, t = c :: s ∧ (c = '-' || FleetMatch.Numeral.isDigit c) = true := by
  obtain ⟨⟨⟨nonempty, digits⟩, -⟩, -, -⟩ := h
  obtain ⟨negative, w, _, _⟩ := n
  cases negative with
  | true => exact ⟨'-', _, rfl, rfl⟩
  | false =>
    obtain ⟨d, w, rfl⟩ := List.exists_cons_of_ne_nil nonempty
    exact ⟨d, _, rfl, by rw [digits d List.mem_cons_self, Bool.or_true]⟩

/-- No other value starts like a number. -/
theorem apart_of_number {c : Char} (h : (c = '-' || FleetMatch.Numeral.isDigit c) = true) :
    isSpace c = false ∧ ∀ d ∈ ['[', '\x7b', 'n', 't', 'f', '"'], c ≠ d := by
  constructor
  · refine Bool.eq_false_iff.2 ?_
    intro space
    simp only [isSpace, Bool.or_eq_true, beq_iff_eq] at space
    rcases space with ((rfl | rfl) | rfl) | rfl <;> cases h
  · rintro d hd rfl
    simp only [List.mem_cons, List.not_mem_nil, or_false] at hd
    rcases hd with rfl | rfl | rfl | rfl | rfl | rfl <;> cases h

/-- A number is a value, after white space. -/
theorem value_number {n : Numeral} {x : Number} (hgap : IsGap gap) (h : NumeralText t n)
    (scanned : scanNumber care (t ++ rest) = .ok (x, rest)) :
    Yields (value care depth (gap ++ (t ++ rest))) (.number x) rest := by
  obtain ⟨c, s, rfl, first⟩ := h.opens
  obtain ⟨space, others⟩ := apart_of_number first
  refine value_scalar (skipSpace_gap_cons hgap space _) (others _ (by simp)) (others _ (by simp)) ?_
  rw [scalar, if_neg (others _ (by simp)), if_neg (others _ (by simp)), if_neg (others _ (by simp)),
    if_neg (others _ (by simp)), if_pos first]
  split
  · rename_i refused
    cases scanned.symm.trans refused
  · rename_i taken
    cases scanned.symm.trans taken
    exact ⟨_, rfl⟩

theorem scanNumber_skipped {n : Numeral} (h : NumeralText t n) (stops : Stops rest) :
    scanNumber .skipped (t ++ rest) = .ok (.int 0, rest) := by
  rw [scanNumber, numeral_text h stops]

/-- A number is read as the value of its numeral. -/
theorem scanNumber_text {rounding : Rounding} {n : Numeral} {x : Number} (h : NumeralText t n)
    (meant : n.number rounding = .ok x) (stops : Stops rest) :
    scanNumber (.full rounding) (t ++ rest) = .ok (x, rest) := by
  rw [scanNumber, numeral_text h stops]
  simp only [meant]

/-- A string is a value, after white space. -/
theorem value_string {letters : List Char} (hgap : IsGap gap)
    (h : Yields (stringTail care t) letters rest) :
    Yields (value care depth (gap ++ '"' :: t)) (.string (String.ofList letters)) rest := by
  obtain ⟨_, h⟩ := h
  refine value_scalar (skipSpace_gap_cons hgap (by decide) _) (by decide) (by decide) ?_
  rw [scalar, if_neg (by decide), if_neg (by decide), if_neg (by decide), if_pos rfl, h]
  exact ⟨_, rfl⟩

/-! ## Items -/

theorem firstItems_nil (next : skipSpace s = ']' :: rest) :
    Yields (firstItems care depth s) [] rest := by
  rw [firstItems]
  split
  · rename_i empty
    cases next.symm.trans empty
  · rename_i found
    cases next.symm.trans found
    rw [if_pos rfl]
    exact ⟨_, rfl⟩

theorem firstItems_cons (first : Yields (value care depth s) v after)
    (more : Yields (itemsTail care depth after) vs rest) :
    Yields (firstItems care depth s) (v :: vs) rest := by
  obtain ⟨c, t, next, bracket⟩ := value_opens first
  obtain ⟨_, first⟩ := first
  obtain ⟨_, more⟩ := more
  rw [firstItems]
  split
  · rename_i empty
    cases next.symm.trans empty
  · rename_i found
    cases next.symm.trans found
    simp only [if_neg bracket, first, more]
    exact ⟨_, rfl⟩

theorem itemsTail_nil (h : Yields (mark ']' s) .close rest) :
    Yields (itemsTail care depth s) [] rest := by
  obtain ⟨_, h⟩ := h
  rw [itemsTail, h]
  exact ⟨_, rfl⟩

theorem itemsTail_cons (comma : Yields (mark ']' s) .comma t) (item : Yields (value care depth t) v after)
    (more : Yields (itemsTail care depth after) vs rest) :
    Yields (itemsTail care depth s) (v :: vs) rest := by
  obtain ⟨_, comma⟩ := comma
  obtain ⟨_, item⟩ := item
  obtain ⟨_, more⟩ := more
  rw [itemsTail, comma]
  simp only [item, more]
  exact ⟨_, rfl⟩

/-! ## Members -/

/-- The name of a member with the colon behind it. -/
theorem memberName_text {before between letters : List Char} (hb : IsGap before)
    (tail : Yields (stringTail care s) letters (between ++ ':' :: rest)) (hm : IsGap between) :
    Yields (memberName care (before ++ '"' :: s)) (String.ofList letters) rest := by
  obtain ⟨_, quote⟩ : Yields (punctuation '"' (before ++ '"' :: s)) () s := punctuation_gap hb (by decide)
  obtain ⟨_, tail⟩ := tail
  obtain ⟨_, colon⟩ : Yields (punctuation ':' (between ++ ':' :: rest)) () rest :=
    punctuation_gap hm (by decide)
  rw [memberName, quote]
  simp only [tail, colon]
  exact ⟨_, rfl⟩

theorem members_single (hn : Yields (memberName care s) name t) (hv : Yields (value care depth t) v after)
    (close : Yields (mark '\x7d' after) .close rest) :
    Yields (members care depth s) [(name, v)] rest := by
  obtain ⟨_, hn⟩ := hn
  obtain ⟨_, hv⟩ := hv
  obtain ⟨_, close⟩ := close
  rw [members, hn]
  simp only [hv, close]
  exact ⟨_, rfl⟩

theorem members_cons {following : List Char} (hn : Yields (memberName care s) name t)
    (hv : Yields (value care depth t) v after) (comma : Yields (mark '\x7d' after) .comma following)
    (more : Yields (members care depth following) ms rest) :
    Yields (members care depth s) ((name, v) :: ms) rest := by
  obtain ⟨_, hn⟩ := hn
  obtain ⟨_, hv⟩ := hv
  obtain ⟨_, comma⟩ := comma
  obtain ⟨_, more⟩ := more
  rw [members, hn]
  simp only [hv, comma, more]
  exact ⟨_, rfl⟩

/-- Members start with a quote. -/
theorem members_opens (h : Yields (members care depth s) ms rest) : ∃ t, skipSpace s = '"' :: t := by
  obtain ⟨shorter, h⟩ := h
  rw [members, memberName, punctuation] at h
  split at h
  · cases h
  · rename_i named
    split at named
    · cases named
    · rename_i quoted
      split at quoted
      · cases quoted
      · rename_i next
        split at quoted
        · rename_i quote
          exact ⟨_, quote ▸ next⟩
        · cases quoted

theorem firstMembers_nil (next : skipSpace s = '\x7d' :: rest) :
    Yields (firstMembers care depth s) [] rest := by
  rw [firstMembers]
  split
  · rename_i empty
    cases next.symm.trans empty
  · rename_i found
    cases next.symm.trans found
    rw [if_pos rfl]
    exact ⟨_, rfl⟩

theorem firstMembers_cons (h : Yields (members care depth s) ms rest) :
    Yields (firstMembers care depth s) ms rest := by
  obtain ⟨t, next⟩ := members_opens h
  rw [firstMembers]
  split
  · rename_i empty
    cases next.symm.trans empty
  · rename_i found
    cases next.symm.trans found
    rw [if_neg (by decide)]
    exact h

end

/-! ## Whole texts -/

/-- A text is read as a whole if only white space is left. -/
theorem readAll_text {α : Type} {reader : Nat → Reader α} {s gap : List Char} {x : α}
    (h : Yields (reader maxDepth s) x gap) (hgap : IsGap gap) : readAll reader s = .ok x := by
  obtain ⟨shorter, h⟩ := h
  have nothing : (skipSpace gap).isEmpty = true := by
    rw [← List.append_nil gap, skipSpace_gap hgap]
    rfl
  rw [readAll, h]
  exact if_pos nothing

/-! ## Whole values -/

/-- A part of a text is skipped, whatever stands behind it. -/
def Skips : Part → List Char → Prop
  | .value, t => ∀ gap rest, IsGap gap → Stops rest →
      ∃ v, Yields (value .skipped none (gap ++ (t ++ rest))) v rest
  | .item, t => ∀ rest, Stops rest →
      ∃ v gap, IsGap gap ∧ Yields (value .skipped none (t ++ rest)) v (gap ++ rest)
  | .items, t => ∀ rest, ∃ v after vs, Yields (value .skipped none (t ++ ']' :: rest)) v after ∧
      Yields (itemsTail .skipped none after) vs rest
  | .member, t => ∀ rest, Stops rest →
      ∃ name valued v gap, Yields (memberName .skipped (t ++ rest)) name valued ∧ IsGap gap ∧
        Yields (value .skipped none valued) v (gap ++ rest)
  | .members, t => ∀ rest, ∃ ms, Yields (members .skipped none (t ++ '\x7d' :: rest)) ms rest

theorem stops_of_mark {c : Char} (h : c = ',' ∨ c = ']' ∨ c = '\x7d') (rest : List Char) :
    Stops (c :: rest) := by
  refine Stops.cons ?_ rest
  rcases h with rfl | rfl | rfl <;> decide

/-- A text between two marks, with a text behind it. -/
theorem enclosed_append (a b : Char) (t rest : List Char) :
    a :: (t ++ [b]) ++ rest = a :: (t ++ b :: rest) := by
  rw [List.cons_append, List.append_assoc, List.singleton_append]

/-- **Every value of the grammar is skipped**, however deep it is nested, and so is every part of one. -/
theorem skips_text {part : Part} {t : List Char} (h : IsText part t) : Skips part t := by
  induction h with
  | null | yes | no =>
    intro gap rest hgap _
    exact ⟨_, value_scalar (skipSpace_gap_cons hgap (by decide) _) (by decide) (by decide) ⟨_, rfl⟩⟩
  | number h =>
    intro gap rest hgap stops
    exact ⟨_, value_number hgap h (scanNumber_skipped h stops)⟩
  | string h =>
    intro gap rest hgap _
    obtain ⟨letters, hl⟩ := stringTail_body h rest
    rw [enclosed_append]
    exact ⟨_, value_string hgap hl⟩
  | emptyArray h =>
    intro gap rest hgap _
    rw [enclosed_append]
    exact ⟨_, value_array (skipSpace_gap_cons hgap (by decide) _) rfl
      (firstItems_nil (skipSpace_gap_cons h (by decide) rest))⟩
  | array _ ih =>
    intro gap rest hgap _
    obtain ⟨v, after, vs, first, more⟩ := ih rest
    rw [enclosed_append]
    exact ⟨_, value_array (skipSpace_gap_cons hgap (by decide) _) rfl (firstItems_cons first more)⟩
  | emptyObject h =>
    intro gap rest hgap _
    rw [enclosed_append]
    exact ⟨_, value_object (skipSpace_gap_cons hgap (by decide) _) rfl
      (firstMembers_nil (skipSpace_gap_cons h (by decide) rest))⟩
  | object _ ih =>
    intro gap rest hgap _
    obtain ⟨ms, hm⟩ := ih rest
    rw [enclosed_append]
    exact ⟨_, value_object (skipSpace_gap_cons hgap (by decide) _) rfl (firstMembers_cons hm)⟩
  | item before _ after ih =>
    intro rest stops
    obtain ⟨v, hv⟩ := ih _ _ before (Stops.gap after stops)
    refine ⟨v, _, after, ?_⟩
    rw [List.append_assoc, List.append_assoc]
    exact hv
  | lastItem _ ih =>
    intro rest
    obtain ⟨v, gap, hgap, hv⟩ := ih _ (stops_of_mark (Or.inr (Or.inl rfl)) rest)
    exact ⟨v, _, [], hv, itemsTail_nil (mark_close hgap (by decide) (by decide))⟩
  | moreItems _ _ ih more =>
    intro rest
    obtain ⟨w, after, vs, hw, tail⟩ := more rest
    obtain ⟨v, gap, hgap, hv⟩ := ih _ (stops_of_mark (Or.inl rfl) _)
    refine ⟨v, _, w :: vs, ?_, itemsTail_cons (mark_comma hgap ']') hw tail⟩
    rw [List.append_assoc]
    exact hv
  | @member before name between t hb hn hm _ ih =>
    intro rest stops
    obtain ⟨v, gap, hgap, hv⟩ := ih rest stops
    obtain ⟨letters, tail⟩ := stringTail_body hn (between ++ ':' :: (t ++ rest))
    refine ⟨String.ofList letters, t ++ rest, v, gap, ?_, hgap, hv⟩
    have text : before ++ '"' :: (name ++ '"' :: (between ++ ':' :: t)) ++ rest =
        before ++ '"' :: (name ++ '"' :: (between ++ ':' :: (t ++ rest))) := by
      simp only [List.append_assoc, List.cons_append]
    rw [text]
    exact memberName_text hb tail hm
  | lastMember _ ih =>
    intro rest
    obtain ⟨name, valued, v, gap, hn, hgap, hv⟩ := ih _ (stops_of_mark (Or.inr (Or.inr rfl)) rest)
    exact ⟨_, members_single hn hv (mark_close hgap (by decide) (by decide))⟩
  | moreMembers _ _ ih more =>
    intro rest
    obtain ⟨ms, hm⟩ := more rest
    obtain ⟨name, valued, v, gap, hn, hgap, hv⟩ := ih _ (stops_of_mark (Or.inl rfl) _)
    refine ⟨(name, v) :: ms, ?_⟩
    rw [List.append_assoc]
    exact members_cons hn hv (mark_comma hgap '\x7d') hm

end FleetMatch.Json
