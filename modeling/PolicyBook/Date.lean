import PolicyBook.Text.Numeral
/-!
Days of the proleptic Gregorian calendar.

A date and the number of its day, counted from 1 January 1970, determine each other:
`Date.dayNumber` and `Date.ofDayNumber`. Both count in eras of four hundred years that begin on
1 March, so that a leap day comes last in its year and every era has the same length.
-/
namespace PolicyBook

def isLeapYear (year : Int) : Bool :=
  year % 4 == 0 && (year % 100 != 0 || year % 400 == 0)

/-- How many days a month has; a number that is no month has none. -/
def daysInMonth (year : Int) (month : Nat) : Nat :=
  match month with
  | 1 | 3 | 5 | 7 | 8 | 10 | 12 => 31
  | 4 | 6 | 9 | 11 => 30
  | 2 => if isLeapYear year then 29 else 28
  | _ => 0

/-- A year, a month from 1 to 12 and a day from 1. -/
structure Date where
  /-- The year, with a year 0 and negative years before it. -/
  year : Int
  month : Nat
  day : Nat
  deriving DecidableEq, Repr

namespace Date

def IsValid (d : Date) : Prop :=
  1 ≤ d.day ∧ d.day ≤ daysInMonth d.year d.month

instance (d : Date) : Decidable d.IsValid :=
  inferInstanceAs (Decidable (_ ∧ _))

/-- The number of days of four hundred years. -/
def daysPerEra : Nat := 146097

/-- The number of the day 1 March of year 0, counted from 1 January 1970, is this far below zero. -/
def daysToEpoch : Nat := 719468

/-- The number of days from 1 January 1970 to a date. -/
def dayNumber (d : Date) : Int :=
  -- January and February close the year before
  let year := if d.month ≤ 2 then d.year - 1 else d.year
  let monthOfYear := if d.month ≤ 2 then d.month + 9 else d.month - 3
  let yearOfEra := (year % 400).toNat
  let dayOfYear := (153 * monthOfYear + 2) / 5 + d.day - 1
  let dayOfEra := yearOfEra * 365 + yearOfEra / 4 - yearOfEra / 100 + dayOfYear
  year / 400 * daysPerEra + dayOfEra - daysToEpoch

/-- The date that lies a number of days after 1 January 1970. -/
def ofDayNumber (n : Int) : Date :=
  let shifted := n + daysToEpoch
  let dayOfEra := (shifted % daysPerEra).toNat
  let yearOfEra := (dayOfEra - dayOfEra / 1460 + dayOfEra / 36524 - dayOfEra / 146096) / 365
  let dayOfYear := dayOfEra - (365 * yearOfEra + yearOfEra / 4 - yearOfEra / 100)
  let monthOfYear := (5 * dayOfYear + 2) / 153
  let day := dayOfYear - (153 * monthOfYear + 2) / 5 + 1
  let year := shifted / daysPerEra * 400 + yearOfEra
  if monthOfYear < 10 then ⟨year, monthOfYear + 3, day⟩ else ⟨year + 1, monthOfYear - 9, day⟩

/-- Four digits for the years 0 to 9999; a sign and at least four digits for all others. -/
def yearText (year : Int) : List Char :=
  if 0 ≤ year ∧ year ≤ 9999 then Text.padded 4 year.toNat
  else (if year < 0 then '-' else '+') :: Text.padded 4 year.natAbs

def text (d : Date) : List Char :=
  yearText d.year ++ '-' :: Text.padded 2 d.month ++ '-' :: Text.padded 2 d.day

example : dayNumber ⟨1970, 1, 1⟩ = 0 := by decide
example : dayNumber ⟨2000, 2, 29⟩ = 11016 := by decide
example : ofDayNumber 11016 = ⟨2000, 2, 29⟩ := by decide
example : ofDayNumber (-719469) = ⟨0, 2, 29⟩ := by decide

end Date

end PolicyBook
