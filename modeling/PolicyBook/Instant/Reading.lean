import PolicyBook.Instant
import PolicyBook.Text.Scan
/-!
Reading instants from texts.

* `Instant.parse` takes the RFC 3339 form in universal time, with fixed widths, and keeps whole
  seconds: the fraction is dropped and second 60 becomes second 59.
* `Instant.ofText?` is lenient: numbers may be short and blanks may stand around them, any offset
  from universal time is converted, and the fraction and a second 60 are kept.
-/
namespace PolicyBook

/-- What a clock on the wall shows: a date, a time of day and the offset from universal time. -/
structure ClockReading where
  date : Date
  hour : Nat
  minute : Nat
  /-- The second; 60 is a leap second. -/
  second : Nat
  nanos : Nat
  /-- By how many seconds the clock is ahead of universal time. -/
  offset : Int

def ClockReading.instant? (r : ClockReading) : Option Instant :=
  if (-262143 ≤ r.date.year ∧ r.date.year ≤ 262142 ∧ r.date.IsValid) ∧
      r.hour ≤ 23 ∧ r.minute ≤ 59 ∧ r.second ≤ 60 ∧ r.offset.natAbs < 86400 then
    let minuteStart := r.date.dayNumber * 86400 + r.hour * 3600 + r.minute * 60
    if r.second = 60 then Instant.ofParts? (minuteStart + 59 - r.offset) (nanosPerSecond + r.nanos)
    else Instant.ofParts? (minuteStart + r.second - r.offset) r.nanos
  else none

namespace Instant

open Text

def separator? : List Char → Option (List Char)
  | c :: cs => if c = 'T' ∨ c = 't' ∨ c = ' ' then some cs else none
  | [] => none

/-- The nanoseconds that the digits of a fraction denote; digits after the ninth do not count. -/
def fraction? (cs : List Char) : Option (Nat × List Char) :=
  match digits 9 cs with
  | ([], _) => none
  | (ds, rest) => some (ofDigits ds * tenTo (9 - ds.length), dropDigits rest)

/-- Take an optional fraction off: a point and at least one digit. -/
def optionalFraction? (cs : List Char) : Option (Nat × List Char) :=
  match char? '.' cs with
  | some rest => fraction? rest
  | none => some (0, cs)

/-- Read the fixed form `YYYY-MM-DDTHH:MM:SS.fZ`. -/
def ofFixedForm? (cs : List Char) : Option Instant := do
  let (year, cs) ← fixedNumber? 4 cs
  let cs ← char? '-' cs
  let (month, cs) ← fixedNumber? 2 cs
  let cs ← char? '-' cs
  let (day, cs) ← fixedNumber? 2 cs
  let cs ← separator? cs
  let (hour, cs) ← fixedNumber? 2 cs
  let cs ← char? ':' cs
  let (minute, cs) ← fixedNumber? 2 cs
  let cs ← char? ':' cs
  let (second, cs) ← fixedNumber? 2 cs
  let (nanos, cs) ← optionalFraction? cs
  guard (cs = ['Z'])
  ClockReading.instant? ⟨⟨year, month, day⟩, hour, minute, second, nanos, 0⟩

def parse (s : String) : Except Refusal Instant :=
  if s.toList.getLast? ≠ some 'Z' then .error (.timeNotUniversal s)
  else
    match ofFixedForm? s.toList with
    | some t => .ok t.truncated
    | none => .error (.malformedTime s)

/-- Take blanks and then a number of at most `limit` digits off. -/
def spacedNumber? (limit : Nat) (cs : List Char) : Option (Nat × List Char) :=
  number? limit (trimmedStart cs)

def spacedMark? (c : Char) (cs : List Char) : Option (List Char) :=
  char? c (trimmedStart cs)

/-- Take a year off: with a sign any number of digits, without one at most four. -/
def year? (cs : List Char) : Option (Int × List Char) := do
  match trimmedStart cs with
  | '-' :: rest => let (n, rest) ← longNumber? rest; return (-n, rest)
  | '+' :: rest => let (n, rest) ← longNumber? rest; return (n, rest)
  | rest => let (n, rest) ← number? 4 rest; return (n, rest)

/-- Take the offset from universal time off: `Z`, `UTC` or a sign with hours and minutes. -/
def offset? (cs : List Char) : Option (Int × List Char) := do
  if (cs.take 3).map Char.toUpper = ['U', 'T', 'C'] then return (0, cs.drop 3)
  match cs with
  | [] => none
  | sign :: rest =>
    if sign = 'Z' ∨ sign = 'z' then return (0, rest)
    guard (sign = '+' ∨ sign = '-' ∨ sign = '−')
    let (hours, rest) ← fixedNumber? 2 rest
    let rest := rest.dropWhile fun c => c = ':' || isBlank c
    let (minutes, rest) ← fixedNumber? 2 rest
    guard (minutes ≤ 59)
    let ahead : Int := hours * 3600 + minutes * 60
    return (if sign = '+' then ahead else -ahead, rest)

/-- Read a time stamp in the lenient form. -/
def ofText? (s : String) : Option Instant := do
  let (year, cs) ← year? s.toList
  let cs ← spacedMark? '-' cs
  let (month, cs) ← spacedNumber? 2 cs
  let cs ← spacedMark? '-' cs
  let (day, cs) ← spacedNumber? 2 cs
  let cs ← separator? cs
  let (hour, cs) ← spacedNumber? 2 cs
  let cs ← spacedMark? ':' cs
  let (minute, cs) ← spacedNumber? 2 cs
  let cs ← spacedMark? ':' cs
  let (second, cs) ← spacedNumber? 2 cs
  let (nanos, cs) ← optionalFraction? cs
  let (offset, cs) ← offset? (trimmedStart cs)
  guard (trimmedStart cs = [])
  ClockReading.instant? ⟨⟨year, month, day⟩, hour, minute, second, nanos, offset⟩

end Instant

end PolicyBook
