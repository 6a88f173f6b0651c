/-!
# Lines

A line ends at a line feed, and what stands after the last line feed is a line if it is not empty.
A carriage return right before a line feed belongs to the line ending.

* `split`: the lines of a sequence of bytes, each with its line feed if it has one.
-/

namespace FleetMatch.Text.Lines

/-- The line feed. -/
def lineFeed : UInt8 := 10

/-- The carriage return. -/
def carriageReturn : UInt8 := 13

/-- The bytes up to the first line feed and including it, and the bytes after it. -/
def first : List UInt8 → List UInt8 × List UInt8
  | [] => ([], [])
  | b :: rest =>
    if b = lineFeed then ([b], rest)
    else
      let (line, after) := first rest
      (b :: line, after)

theorem first_snd_length : ∀ bs : List UInt8, (first bs).2.length ≤ bs.length
  | [] => Nat.le_refl _
  | b :: rest => by
    have := first_snd_length rest
    by_cases h : b = lineFeed
    · simp [first, h]
    · simpa [first, h] using Nat.le_succ_of_le this

theorem first_cons_snd_length (b : UInt8) (rest : List UInt8) :
    (first (b :: rest)).2.length < (b :: rest).length := by
  have := first_snd_length rest
  by_cases h : b = lineFeed
  · simp [first, h]
  · simpa [first, h] using Nat.lt_succ_of_le this

/-- The lines, each with its ending. -/
def split : List UInt8 → List (List UInt8)
  | [] => []
  | b :: rest => (first (b :: rest)).1 :: split (first (b :: rest)).2
termination_by bs => bs.length
decreasing_by exact first_cons_snd_length b rest

end FleetMatch.Text.Lines
