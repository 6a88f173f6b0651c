import FleetMatch.Decimal.Numeral

/-!
# Time stamps

A moment is counted in milliseconds from the start of 1970 in universal time.  `Stamp.text` writes it
by the Gregorian calendar, to the millisecond.
-/

namespace FleetMatch.Stamp

/-- A numeral filled up with zeros to a width. -/
def padded (width n : Nat) : List Char :=
  let ds := Numeral.digits n
  List.replicate (width - ds.length) '0' ++ ds

/-- A day by year, month and day of the month. -/
structure Date where
  year : Nat
  month : Nat
  day : Nat
  deriving DecidableEq, Repr

/-- The date of a day that is counted from the start of 1970.  The calendar is taken in years that
begin with March, so that a leap day ends its year, and in spans of 400 years, which are equally
long. -/
def date (days : Nat) : Date :=
  let shifted := days + 719468
  let span := shifted / 146097
  let dayOfSpan := shifted % 146097
  let yearOfSpan :=
    (dayOfSpan - dayOfSpan / 1460 + dayOfSpan / 36524 - dayOfSpan / 146096) / 365
  let dayOfYear := dayOfSpan - (365 * yearOfSpan + yearOfSpan / 4 - yearOfSpan / 100)
  let monthOfYear := (5 * dayOfYear + 2) / 153
  let day := dayOfYear - (153 * monthOfYear + 2) / 5 + 1
  let month := if monthOfYear < 10 then monthOfYear + 3 else monthOfYear - 9
  let year := yearOfSpan + span * 400 + (if month ≤ 2 then 1 else 0)
  ⟨year, month, day⟩

/-- A date with its parts from the greatest to the smallest. -/
def Date.text (d : Date) : String :=
  String.ofList (padded 4 d.year ++ '-' :: padded 2 d.month ++ '-' :: padded 2 d.day)

/-- The date of a moment. -/
def dateText (milliseconds : Nat) : String := (date (milliseconds / 86400000)).text

/-- The date and the time of a moment. -/
def text (milliseconds : Nat) : String :=
  let seconds := milliseconds / 1000
  dateText milliseconds ++
    String.ofList
      ('T' :: padded 2 (seconds / 3600 % 24) ++ ':' :: padded 2 (seconds / 60 % 60) ++
        ':' :: padded 2 (seconds % 60) ++ '.' :: padded 3 (milliseconds % 1000) ++ ['Z'])

example : text 951782399999 = "2000-02-28T23:59:59.999Z" := by decide +kernel

example : text 951782400000 = "2000-02-29T00:00:00.000Z" := by decide +kernel

end FleetMatch.Stamp
