import FleetMatch.Text.Lines
import Mathlib.Data.List.Forall2

/-!
# The lines of a text

* `split_append` — the lines of two texts one after the other, if the first of them ends with a line.
* `split_single` — a text without a line feed is one line.
* `Returned`: a text in which some line feeds have been given a carriage return.
* `Returned.split` — carriage returns change nothing but the endings of lines.
-/

set_option autoImplicit false

namespace FleetMatch.Text.Lines

variable {a b : List UInt8}

/-- The text has come to the end of a line: it is empty or its last byte is a line feed. -/
def Ended (a : List UInt8) : Prop := a = [] ∨ a.getLast? = some lineFeed

theorem Ended.nil : Ended [] := .inl rfl

theorem Ended.mem {byte : UInt8} {rest : List UInt8} (h : Ended (byte :: rest)) :
    lineFeed ∈ byte :: rest := by
  rcases h with empty | last
  · cases empty
  · exact List.mem_of_getLast? last

theorem Ended.append (ha : Ended a) (hb : Ended b) : Ended (a ++ b) := by
  rcases hb with rfl | last
  · rwa [List.append_nil]
  · right
    rw [List.getLast?_append, last]
    rfl

theorem first_cons {byte : UInt8} (other : byte ≠ lineFeed) (rest : List UInt8) :
    first (byte :: rest) = (byte :: (first rest).1, (first rest).2) := by
  simp [first, other]

/-- Nothing is lost. -/
theorem first_append_eq (a : List UInt8) : (first a).1 ++ (first a).2 = a := by
  induction a with
  | nil => rfl
  | cons byte rest ih =>
    by_cases h : byte = lineFeed
    · subst h
      rfl
    · rw [first_cons h, List.cons_append, ih]

theorem first_append (more : List UInt8) (ends : lineFeed ∈ a) :
    first (a ++ more) = ((first a).1, (first a).2 ++ more) := by
  induction a with
  | nil => cases ends
  | cons byte rest ih =>
    by_cases h : byte = lineFeed
    · subst h
      rfl
    · have later : lineFeed ∈ rest := (List.mem_cons.1 ends).resolve_left fun same => h same.symm
      rw [List.cons_append, first_cons h, first_cons h, ih later]

theorem first_of_not_mem (unbroken : lineFeed ∉ a) : first a = (a, []) := by
  induction a with
  | nil => rfl
  | cons byte rest ih =>
    have other : byte ≠ lineFeed := fun same => unbroken (same ▸ List.mem_cons_self)
    have later : lineFeed ∉ rest := fun held => unbroken (List.mem_cons_of_mem _ held)
    rw [first_cons other, ih later]

theorem Ended.first_snd (h : Ended a) : Ended (first a).2 := by
  rcases h with rfl | last
  · exact .nil
  · rw [← first_append_eq a, List.getLast?_append] at last
    cases after : (first a).2.getLast? with
    | none => exact .inl (List.getLast?_eq_none_iff.1 after)
    | some byte =>
      rw [after] at last
      exact .inr (after.trans last)

theorem split_cons (byte : UInt8) (rest : List UInt8) : split (byte :: rest) =
    (first (byte :: rest)).1 :: split (first (byte :: rest)).2 := by
  rw [split]

/-- **The lines of two texts** are the lines of the one and then of the other. -/
theorem split_append (ended : Ended a) (b : List UInt8) : split (a ++ b) = split a ++ split b := by
  induction a using split.induct with
  | case1 => rw [split, List.nil_append, List.nil_append]
  | case2 byte rest ih =>
    have line := first_append b ended.mem
    rw [List.cons_append, split_cons, split_cons, List.cons_append]
    rw [← List.cons_append, line, ih ended.first_snd]

theorem split_single (unbroken : lineFeed ∉ a) (nonempty : a ≠ []) : split a = [a] := by
  cases a with
  | nil => exact absurd rfl nonempty
  | cons byte rest =>
    rw [split_cons, first_of_not_mem unbroken, split]

/-! ## Carriage returns -/

/-- The second text is the first one with a carriage return before some of its line feeds. -/
inductive Returned : List UInt8 → List UInt8 → Prop
  | nil : Returned [] []
  | keep {byte : UInt8} {a b : List UInt8} : Returned a b → Returned (byte :: a) (byte :: b)
  | add {a b : List UInt8} : Returned a b → Returned (lineFeed :: a) (carriageReturn :: lineFeed :: b)

/-- A line and the same line with a carriage return before its line feed, or as it is. -/
def SameUpToReturn (line line' : List UInt8) : Prop :=
  line' = line ∨ ∃ body, line = body ++ [lineFeed] ∧ line' = body ++ [carriageReturn, lineFeed]

theorem SameUpToReturn.cons {line line' : List UInt8} (byte : UInt8) (h : SameUpToReturn line line') :
    SameUpToReturn (byte :: line) (byte :: line') := by
  rcases h with rfl | ⟨body, rfl, rfl⟩
  · exact .inl rfl
  · exact .inr ⟨byte :: body, rfl, rfl⟩

theorem Returned.first (h : Returned a b) :
    SameUpToReturn (first a).1 (first b).1 ∧ Returned (first a).2 (first b).2 := by
  induction h with
  | nil => exact ⟨.inl rfl, .nil⟩
  | @keep byte a b same ih =>
    by_cases h : byte = lineFeed
    · subst h
      exact ⟨.inl rfl, same⟩
    · rw [first_cons h, first_cons h]
      exact ⟨ih.1.cons byte, ih.2⟩
  | add same => exact ⟨.inr ⟨[], rfl, rfl⟩, same⟩

/-- **Carriage returns change nothing but the endings of lines.** -/
theorem Returned.split (h : Returned a b) :
    List.Forall₂ SameUpToReturn (Lines.split a) (Lines.split b) := by
  induction a using Lines.split.induct generalizing b with
  | case1 =>
    cases h
    rw [Lines.split]
    exact .nil
  | case2 byte rest ih =>
    obtain ⟨same, further⟩ := h.first
    cases b with
    | nil => cases h
    | cons byte' rest' =>
      rw [split_cons, split_cons]
      exact .cons same (ih further)

end FleetMatch.Text.Lines
