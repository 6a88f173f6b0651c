import FleetMatch.Text.Blank
import Mathlib.Data.List.DropRight

/-!
# Trimming

* `exists_trim` — a text is its trimmed text with blanks on both sides.
* `trim_blank_append`, `trim_append_blank` — blanks at the two ends do not show in the trimmed text.
* `trim_trim`, `trim_of_forall` — a trimmed text stays as it is, and so does a text without blanks.
-/

set_option autoImplicit false

namespace FleetMatch.Text

variable {lead tail : List Char}

theorem isAllBlank_append (cs ds : List Char) :
    isAllBlank (cs ++ ds) = (isAllBlank cs && isAllBlank ds) := List.all_append

/-- Both parts of a blank text are blank. -/
theorem isAllBlank_parts {cs ds : List Char} {c : Char} (blank : isAllBlank (cs ++ c :: ds) = true) :
    isAllBlank cs = true ∧ isAllBlank ds = true := by
  rw [isAllBlank_append, Bool.and_eq_true] at blank
  obtain ⟨before, after⟩ := blank
  rw [isAllBlank, List.all_cons, Bool.and_eq_true] at after
  exact ⟨before, after.2⟩

theorem dropWhile_blank (blank : isAllBlank lead = true) : lead.dropWhile isBlank = [] := by
  rw [List.dropWhile_eq_nil_iff]
  exact List.all_eq_true.1 blank

theorem trimEnd_append_blank (cs : List Char) (blank : isAllBlank tail = true) :
    trimEnd (cs ++ tail) = trimEnd cs := by
  have reversed : isAllBlank tail.reverse = true := by rwa [isAllBlank, List.all_reverse]
  rw [trimEnd, trimEnd, List.reverse_append, List.dropWhile_append, dropWhile_blank reversed]
  rfl

theorem trim_blank_append (cs : List Char) (blank : isAllBlank lead = true) :
    trim (lead ++ cs) = trim cs := by
  rw [trim, trim, List.dropWhile_append, dropWhile_blank blank]
  rfl

theorem trim_append_blank (cs : List Char) (blank : isAllBlank tail = true) :
    trim (cs ++ tail) = trim cs := by
  rw [trim, trim, List.dropWhile_append]
  split
  · rename_i empty
    rw [List.isEmpty_iff.1 empty, dropWhile_blank blank]
  · exact trimEnd_append_blank _ blank

/-- What trimming takes off are blanks. -/
theorem exists_trimEnd (cs : List Char) : ∃ tail, isAllBlank tail = true ∧ cs = trimEnd cs ++ tail := by
  refine ⟨cs.rtakeWhile isBlank, ?_, ?_⟩
  · rw [isAllBlank, List.all_eq_true]
    intro c hc
    exact List.mem_rtakeWhile_imp hc
  · exact List.rdropWhile_append_rtakeWhile.symm

/-- A text is what stands before its first character that is no blank, its trimmed text and blanks. -/
theorem exists_trim (cs : List Char) :
    ∃ tail, isAllBlank tail = true ∧ cs.dropWhile isBlank = trim cs ++ tail :=
  exists_trimEnd (cs.dropWhile isBlank)

theorem isAllBlank_takeWhile (cs : List Char) : isAllBlank (cs.takeWhile isBlank) = true :=
  List.all_takeWhile

theorem trim_dropWhile (cs : List Char) : trim (cs.dropWhile isBlank) = trim cs := by
  rw [trim, List.dropWhile_idempotent, trim]

theorem trim_trim (cs : List Char) : trim (trim cs) = trim cs := by
  obtain ⟨tail, blank, parts⟩ := exists_trim cs
  have same := trim_append_blank (trim cs) blank
  rw [← parts, trim_dropWhile] at same
  exact same.symm

theorem trim_eq_nil_iff {cs : List Char} : trim cs = [] ↔ isAllBlank cs = true := by
  constructor
  · intro trimmed
    obtain ⟨tail, blank, parts⟩ := exists_trim cs
    rw [trimmed, List.nil_append] at parts
    rw [← List.takeWhile_append_dropWhile (p := isBlank) (l := cs), isAllBlank_append, parts, blank,
      isAllBlank_takeWhile]
    rfl
  · intro blank
    rw [trim, dropWhile_blank blank]
    rfl

/-- There is nothing to trim from a text between two characters that are no blanks. -/
theorem trim_enclosed {a b : Char} (ha : isBlank a = false) (hb : isBlank b = false) (cs : List Char) :
    trim (a :: (cs ++ [b])) = a :: (cs ++ [b]) := by
  have start : (a :: (cs ++ [b])).dropWhile isBlank = a :: (cs ++ [b]) :=
    List.dropWhile_cons_of_neg (by simp [ha])
  have stop : (b :: (a :: cs).reverse).dropWhile isBlank = b :: (a :: cs).reverse :=
    List.dropWhile_cons_of_neg (by simp [hb])
  rw [trim, start, trimEnd, ← List.cons_append, List.reverse_append, List.reverse_singleton,
    List.singleton_append, stop, List.reverse_cons, List.reverse_reverse]

/-- There is nothing to trim from a text without blanks. -/
theorem trim_of_forall {cs : List Char} (h : ∀ c ∈ cs, isBlank c = false) : trim cs = cs := by
  have start : cs.dropWhile isBlank = cs := by
    cases cs with
    | nil => rfl
    | cons c rest => exact List.dropWhile_cons_of_neg (by simp [h c List.mem_cons_self])
  have stop : cs.reverse.dropWhile isBlank = cs.reverse := by
    cases reversed : cs.reverse with
    | nil => rfl
    | cons c rest =>
      have last : c ∈ cs := List.mem_reverse.1 (reversed ▸ List.mem_cons_self)
      exact List.dropWhile_cons_of_neg (by simp [h c last])
  rw [trim, start, trimEnd, stop, List.reverse_reverse]

theorem isAllBlank_trim (cs : List Char) : isAllBlank (trim cs) = isAllBlank cs := by
  rw [Bool.eq_iff_iff, ← trim_eq_nil_iff, ← trim_eq_nil_iff, trim_trim]

end FleetMatch.Text
