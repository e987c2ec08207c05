import PolicyBook.Date
import PolicyBook.Refusal
/-!
Instants of universal time.

An instant is a number of seconds since 1970 with nanoseconds on top. A leap second is the last
second of a minute with a thousand million nanoseconds or more, so it lies after every other instant
of that minute and before the next one. Instants are ordered by their seconds, then by their
nanoseconds.

`Instant.iso` shows whole seconds; `Instant.text` shows the nanoseconds as well.
-/
namespace PolicyBook

def nanosPerSecond : Nat := 1000000000

/-- A point in universal time. -/
structure Instant where
  /-- Seconds since 1 January 1970, leap seconds not counted. -/
  seconds : Int
  nanos : Nat
  /-- The earliest instant is the start of the year -262143. -/
  first_le : -8334601228800 ≤ seconds := by omega
  /-- The latest instant lies in the year 262142. -/
  le_last : seconds ≤ 8210266876799 := by omega
  /-- A leap second lasts as long as any other. -/
  nanos_lt : nanos < 2 * nanosPerSecond := by omega
  /-- A leap second ends its minute. -/
  leap : nanosPerSecond ≤ nanos → seconds % 60 = 59 := by omega
  deriving DecidableEq, Repr

namespace Instant

def ofParts? (seconds : Int) (nanos : Nat) : Option Instant :=
  if h : (-8334601228800 ≤ seconds ∧ seconds ≤ 8210266876799) ∧
      nanos < 2 * nanosPerSecond ∧ (nanosPerSecond ≤ nanos → seconds % 60 = 59) then
    some ⟨seconds, nanos, h.1.1, h.1.2, h.2.1, h.2.2⟩
  else none

def ofSeconds (seconds : Int) : Except Refusal Instant :=
  match ofParts? seconds 0 with
  | some t => .ok t
  | none => .error (.secondOutOfRange seconds)

/-- The whole second in which an instant lies; a leap second goes to the second before it. -/
def truncated (t : Instant) : Instant :=
  ⟨t.seconds, 0, t.first_le, t.le_last, by decide, fun h => absurd h (by decide)⟩

/-- Earlier: fewer seconds, or as many and fewer nanoseconds. -/
protected def Lt (s t : Instant) : Prop :=
  s.seconds < t.seconds ∨ s.seconds = t.seconds ∧ s.nanos < t.nanos

instance : LT Instant := ⟨Instant.Lt⟩

instance (s t : Instant) : Decidable (s < t) :=
  inferInstanceAs (Decidable (_ ∨ _))

def date (t : Instant) : Date := Date.ofDayNumber (t.seconds / 86400)

/-- The second of the day of an instant, the leap second not counted. -/
def secondOfDay (t : Instant) : Nat := (t.seconds % 86400).toNat

def isLeap (t : Instant) : Bool := nanosPerSecond ≤ t.nanos

/-- Hours, minutes and seconds; a leap second is second 60. -/
def timeText (t : Instant) : List Char :=
  let s := t.secondOfDay
  let second := s % 60 + if t.isLeap then 1 else 0
  Text.padded 2 (s / 3600) ++ ':' :: Text.padded 2 (s / 60 % 60) ++ ':' :: Text.padded 2 second

/-- The fraction of the second with three, six or nine digits, whichever is the first to be exact,
or nothing for a whole second. -/
def fractionText (t : Instant) : List Char :=
  let n := t.nanos % nanosPerSecond
  if n = 0 then []
  else if n % 1000000 = 0 then '.' :: Text.padded 3 (n / 1000000)
  else if n % 1000 = 0 then '.' :: Text.padded 6 (n / 1000)
  else '.' :: Text.padded 9 n

/-- Date and time with whole seconds. -/
def iso (t : Instant) : String :=
  String.ofList (t.date.text ++ 'T' :: t.timeText ++ ['Z'])

/-- Date and time with the fraction of the second. -/
def text (t : Instant) : String :=
  String.ofList (t.date.text ++ 'T' :: t.timeText ++ t.fractionText ++ ['Z'])

theorem ofParts?_self (t : Instant) : ofParts? t.seconds t.nanos = some t := by
  obtain ⟨seconds, nanos, first_le, le_last, nanos_lt, leap⟩ := t
  exact dif_pos ⟨⟨first_le, le_last⟩, nanos_lt, leap⟩

theorem lt_iff {s t : Instant} :
    s < t ↔ s.seconds < t.seconds ∨ s.seconds = t.seconds ∧ s.nanos < t.nanos := Iff.rfl

theorem ext {s t : Instant} (hs : s.seconds = t.seconds) (hn : s.nanos = t.nanos) : s = t := by
  cases s
  cases t
  simp_all

theorem lt_irrefl (t : Instant) : ¬ t < t := by
  simp [lt_iff]

theorem lt_trans {r s t : Instant} (hrs : r < s) (hst : s < t) : r < t := by
  rw [lt_iff] at *
  omega

theorem lt_trichotomy (s t : Instant) : s < t ∨ s = t ∨ t < s := by
  by_cases hs : s.seconds = t.seconds
  · by_cases hn : s.nanos = t.nanos
    · exact .inr (.inl (ext hs hn))
    · rw [lt_iff, lt_iff]
      omega
  · rw [lt_iff, lt_iff]
    omega

end Instant

end PolicyBook
