import FleetMatch.Toml.Scanner

/-!
# Dates and times in TOML

A moment is a date, a time, or both, and then perhaps with an offset.  A time may go without its
seconds.  Settings have no use for moments as such, so a moment is read as its text in a uniform
spelling: a `T` between date and time, a `Z` that is a capital, an offset of nothing with a plus, and
a fraction of at most nine digits without zeros at its end, but at least one digit.
-/

namespace FleetMatch.Toml.Moment

/-- Takes a number of exactly so many digits, up to a greatest value. -/
def number? (width least greatest : Nat) (s : List Char) : Option (List Char × List Char) :=
  let digits := s.take width
  if digits.length = width && digits.all Numeral.isDigit && least ≤ Numeral.value digits &&
      Numeral.value digits ≤ greatest then
    some (digits, s.drop width)
  else none

/-- Takes one of some characters. -/
def one? (marks : List Char) : List Char → Option (List Char)
  | c :: rest => if marks.contains c then some rest else none
  | [] => none

/-- The number of days in a month. -/
def daysIn (year month : Nat) : Nat :=
  if month = 2 then
    if year % 4 = 0 && (year % 100 != 0 || year % 400 = 0) then 29 else 28
  else if [4, 6, 9, 11].contains month then 30
  else 31

/-- A date. -/
def date? (s : List Char) : Option (List Char × List Char) := do
  let (year, s) ← number? 4 0 9999 s
  let s ← one? ['-'] s
  let (month, s) ← number? 2 1 12 s
  let s ← one? ['-'] s
  let (day, s) ← number? 2 1 (daysIn (Numeral.value year) (Numeral.value month)) s
  return (year ++ '-' :: month ++ '-' :: day, s)

/-- The fraction of a second, if there is one; nine digits count. -/
def fraction? : List Char → Option (List Char × List Char)
  | '.' :: s =>
    let digits := s.takeWhile Numeral.isDigit
    if digits.isEmpty then none
    else
      let kept := ((digits.take 9).reverse.dropWhile (· == '0')).reverse
      some ('.' :: (if kept.isEmpty then ['0'] else kept), s.dropWhile Numeral.isDigit)
  | s => some ([], s)

/-- The seconds of a time, if there are any. -/
def seconds? : List Char → Option (List Char × List Char)
  | ':' :: s => do
    let (second, s) ← number? 2 0 60 s
    let (fraction, s) ← fraction? s
    return (':' :: second ++ fraction, s)
  | s => some ([], s)

/-- A time of day. -/
def time? (s : List Char) : Option (List Char × List Char) := do
  let (hour, s) ← number? 2 0 23 s
  let s ← one? [':'] s
  let (minute, s) ← number? 2 0 59 s
  let (seconds, s) ← seconds? s
  return (hour ++ ':' :: minute ++ seconds, s)

/-- The offset of a time, if there is one. -/
def offset? : List Char → Option (List Char × List Char)
  | 'Z' :: s | 'z' :: s => some (['Z'], s)
  | '+' :: s => signed '+' s
  | '-' :: s => signed '-' s
  | s => some ([], s)
where
  /-- Hours and minutes after the sign of an offset. -/
  signed (sign : Char) (s : List Char) : Option (List Char × List Char) := do
    let (hour, s) ← number? 2 0 23 s
    let s ← one? [':'] s
    let (minute, s) ← number? 2 0 59 s
    let isNothing := Numeral.value hour = 0 ∧ Numeral.value minute = 0
    return ((if isNothing then '+' else sign) :: hour ++ ':' :: minute, s)

/-- The uniform spelling of a moment that makes up a whole text. -/
def whole? (s : List Char) : Option String :=
  let ended (r : Option (List Char × List Char)) : Option String :=
    r.bind fun (text, rest) => if rest.isEmpty then some (String.ofList text) else none
  match date? s with
  | none => ended (time? s)
  | some (date, []) => some (String.ofList date)
  | some (date, rest) =>
    ended do
      let rest ← one? ['T', 't', ' '] rest
      let (time, rest) ← time? rest
      let (offset, rest) ← offset? rest
      return (date ++ 'T' :: time ++ offset, rest)

end FleetMatch.Toml.Moment
