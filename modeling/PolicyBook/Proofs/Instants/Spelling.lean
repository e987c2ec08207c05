import PolicyBook.Proofs.Calendar.Order
import PolicyBook.Proofs.Instants
/-!
Spellings of time stamps.

A time stamp in the fixed form is spelled by its parts: a date, a separator, a time of day and
perhaps the digits of a fraction. A spelling is allowed if a clock can show it, and then it stands
for a second of the years 0 to 9999.

* **`Instant.hasFourDigits_iff`** — the first and the last second of these years;
* **`Instant.Spelling.IsAllowed.exists_instant?`** — every moment that is allowed to be spelled is
  an instant;
* **`Instant.Spelling.shown_of_instant?`** — what a clock shows as an instant, it can show.
-/
namespace PolicyBook

open Text

/-! ### The years of the fixed form -/

namespace Date

theorem fourDigits_iff {n : Int} :
    0 ≤ (ofDayNumber n).year ∧ (ofDayNumber n).year ≤ 9999 ↔ -719528 ≤ n ∧ n ≤ 2932896 := by
  have hmonth := month_ofDayNumber n
  have hday := (isValid_ofDayNumber n).1
  have hfirst : ofDayNumber (-719528) = ⟨0, 1, 1⟩ := by decide
  have hbehind : ofDayNumber 2932897 = ⟨10000, 1, 1⟩ := by decide
  -- the first day of a year is the least of its dates
  have hlow := ofDayNumber_lt_iff (m := n) (n := -719528)
  have hhigh := ofDayNumber_lt_iff (m := n) (n := 2932897)
  rw [hfirst, lt_iff] at hlow
  rw [hbehind, lt_iff] at hhigh
  simp only at hlow hhigh
  omega

end Date

namespace Instant

def HasFourDigits (t : Instant) : Prop := 0 ≤ t.date.year ∧ t.date.year ≤ 9999

theorem hasFourDigits_iff {t : Instant} :
    t.HasFourDigits ↔ -62167219200 ≤ t.seconds ∧ t.seconds ≤ 253402300799 := by
  rw [HasFourDigits, date, Date.fourDigits_iff]
  omega

/-! ### Spellings -/

/-- A time stamp in the fixed form, part by part. -/
structure Spelling where
  /-- The year, spelled with four digits. -/
  year : Nat
  /-- The month, with two digits like everything that follows. -/
  month : Nat
  day : Nat
  separator : Char
  hour : Nat
  minute : Nat
  /-- The second; 60 is a leap second. -/
  second : Nat
  /-- The digits behind the point, if there is one. -/
  fraction : List Char

/-- A point and the digits behind it, or nothing. -/
def fractionSpelling (fraction : List Char) : List Char :=
  if fraction = [] then [] else '.' :: fraction

namespace Spelling

def date (w : Spelling) : Date := ⟨w.year, w.month, w.day⟩

def chars (w : Spelling) : List Char :=
  padded 4 w.year ++ '-' :: (padded 2 w.month ++ '-' :: (padded 2 w.day ++ w.separator ::
    (padded 2 w.hour ++ ':' :: (padded 2 w.minute ++ ':' :: (padded 2 w.second ++
      (fractionSpelling w.fraction ++ ['Z']))))))

/-- The seconds from 1970 to the spelled moment; second 60 counts as the second before it. -/
def seconds (w : Spelling) : Int :=
  w.date.dayNumber * 86400 + w.hour * 3600 + w.minute * 60 + min w.second 59

/-- Whether a clock can show what is spelled. -/
structure IsAllowed (w : Spelling) : Prop where
  year_le : w.year ≤ 9999
  date_isValid : w.date.IsValid
  separator : w.separator = 'T' ∨ w.separator = 't' ∨ w.separator = ' '
  hour_le : w.hour ≤ 23
  minute_le : w.minute ≤ 59
  second_le : w.second ≤ 60
  fraction : ∀ c ∈ w.fraction, c.isDigit = true

/-- The spelling with a `T`, without a fraction and not of a leap second. -/
structure IsPlain (w : Spelling) : Prop where
  separator : w.separator = 'T'
  fraction : w.fraction = []
  second_lt : w.second < 60

end Spelling

/-! ### What a clock shows -/

theorem ofParts?_eq_some {seconds : Int} {nanos : Nat} {t : Instant}
    (h : ofParts? seconds nanos = some t) : t.seconds = seconds ∧ t.nanos = nanos := by
  rw [ofParts?] at h
  split at h
  · obtain rfl := Option.some_inj.1 h
    exact ⟨rfl, rfl⟩
  · exact absurd h (by simp)

namespace Spelling

variable {w : Spelling} {fraction : Nat} {t : Instant}

/-- What a clock in universal time shows where the fraction is so many nanoseconds. -/
def reading (w : Spelling) (fraction : Nat) : ClockReading :=
  ⟨w.date, w.hour, w.minute, w.second, fraction, 0⟩

theorem IsAllowed.month_le (h : w.IsAllowed) : w.month ≤ 12 :=
  (Date.month_of_isValid h.date_isValid).2

theorem IsAllowed.day_le (h : w.IsAllowed) : w.day ≤ 31 := by
  have hday := Date.day_ofDayNumber_le w.date.dayNumber
  rwa [Date.ofDayNumber_dayNumber h.date_isValid] at hday

theorem IsAllowed.seconds_bounds (h : w.IsAllowed) :
    -62167219200 ≤ w.seconds ∧ w.seconds ≤ 253402300799 := by
  have hyear : 0 ≤ w.date.year ∧ w.date.year ≤ 9999 :=
    ⟨Int.natCast_nonneg w.year, Int.ofNat_le.2 h.year_le⟩
  rw [← Date.ofDayNumber_dayNumber h.date_isValid, Date.fourDigits_iff] at hyear
  have hhour := h.hour_le
  have hminute := h.minute_le
  rw [seconds]
  omega

/-- A clock that shows second 60 adds the second to the fraction. -/
def nanos (w : Spelling) (fraction : Nat) : Nat :=
  if w.second = 60 then nanosPerSecond + fraction else fraction

theorem instant?_reading (hdate : w.date.IsValid) (hyear : w.year ≤ 9999) (hhour : w.hour ≤ 23)
    (hminute : w.minute ≤ 59) (hsecond : w.second ≤ 60) :
    (w.reading fraction).instant? = ofParts? w.seconds (w.nanos fraction) := by
  have hshown : (-262143 ≤ (w.reading fraction).date.year ∧
      (w.reading fraction).date.year ≤ 262142 ∧ (w.reading fraction).date.IsValid) ∧
      (w.reading fraction).hour ≤ 23 ∧ (w.reading fraction).minute ≤ 59 ∧
      (w.reading fraction).second ≤ 60 ∧ (w.reading fraction).offset.natAbs < 86400 := by
    refine ⟨⟨?_, ?_, hdate⟩, hhour, hminute, hsecond, show (0 : Int).natAbs < 86400 by decide⟩
    · show (-262143 : Int) ≤ w.year
      omega
    · show (w.year : Int) ≤ 262142
      omega
  rw [ClockReading.instant?, if_pos hshown]
  show (if w.second = 60 then ofParts? (w.date.dayNumber * 86400 + w.hour * 3600 +
      w.minute * 60 + 59 - 0) (nanosPerSecond + fraction)
    else ofParts? (w.date.dayNumber * 86400 + w.hour * 3600 + w.minute * 60 + w.second - 0)
      fraction) = _
  rw [nanos]
  split
  · congr 1
    rw [seconds]
    omega
  · congr 1
    rw [seconds]
    omega

theorem IsAllowed.exists_instant? (h : w.IsAllowed) (hfraction : fraction < nanosPerSecond) :
    ∃ t, (w.reading fraction).instant? = some t ∧ t.seconds = w.seconds := by
  have hbounds := h.seconds_bounds
  have hbillion : nanosPerSecond = 1000000000 := rfl
  have hlt : w.nanos fraction < 2 * nanosPerSecond := by
    rw [nanos]
    split <;> omega
  have hleap : nanosPerSecond ≤ w.nanos fraction → w.seconds % 60 = 59 := by
    rw [nanos, seconds]
    split <;> omega
  rw [instant?_reading h.date_isValid h.year_le h.hour_le h.minute_le h.second_le]
  exact ⟨⟨w.seconds, w.nanos fraction, by omega, by omega, hlt, hleap⟩,
    dif_pos ⟨by omega, hlt, hleap⟩, rfl⟩

theorem shown_of_instant? (hyear : w.year ≤ 9999) (h : (w.reading fraction).instant? = some t) :
    w.date.IsValid ∧ w.hour ≤ 23 ∧ w.minute ≤ 59 ∧ w.second ≤ 60 ∧ t.seconds = w.seconds := by
  obtain ⟨hdate, hhour, hminute, hsecond⟩ :
      w.date.IsValid ∧ w.hour ≤ 23 ∧ w.minute ≤ 59 ∧ w.second ≤ 60 := by
    rw [ClockReading.instant?] at h
    split at h
    · next hshown =>
      obtain ⟨⟨-, -, hdate⟩, hhour, hminute, hsecond, -⟩ := hshown
      exact ⟨hdate, hhour, hminute, hsecond⟩
    · exact absurd h (by simp)
  rw [instant?_reading hdate hyear hhour hminute hsecond] at h
  exact ⟨hdate, hhour, hminute, hsecond, (ofParts?_eq_some h).1⟩

end Spelling

end Instant

end PolicyBook
