import PolicyBook.Proofs.Calendar
/-!
Dates in their order.

Dates are compared by year, month and day. The days of the calendar are counted in the same order: a
date is taken to the year from March to February in which it lies and to its place in that year, and
the days before a year and the places in it both grow.

* **`Date.dayNumber_lt_iff`** — dates of the calendar are in the order of their numbers;
* **`Date.ofDayNumber_lt_iff`** — days are in the order of their dates;
* **`Date.ofDayNumber_dayNumber`** — every date of the calendar is found again from its number.
-/
namespace PolicyBook.Date

/-- Earlier: an earlier year, or the same year and an earlier month, or an earlier day of the same
month. -/
protected def Lt (d e : Date) : Prop :=
  d.year < e.year ∨ d.year = e.year ∧ (d.month < e.month ∨ d.month = e.month ∧ d.day < e.day)

instance : LT Date := ⟨Date.Lt⟩

theorem lt_iff {d e : Date} : d < e ↔
    d.year < e.year ∨ d.year = e.year ∧ (d.month < e.month ∨ d.month = e.month ∧ d.day < e.day) :=
  Iff.rfl

theorem ext {d e : Date} (hyear : d.year = e.year) (hmonth : d.month = e.month)
    (hday : d.day = e.day) : d = e := by
  cases d
  cases e
  simp_all

theorem lt_trichotomy (d e : Date) : d < e ∨ d = e ∨ e < d := by
  by_cases hyear : d.year = e.year
  · by_cases hmonth : d.month = e.month
    · by_cases hday : d.day = e.day
      · exact .inr (.inl (ext hyear hmonth hday))
      · rw [lt_iff, lt_iff]
        omega
    · rw [lt_iff, lt_iff]
      omega
  · rw [lt_iff, lt_iff]
    omega

/-! ### Years that begin in March -/

/-- The year in which a date lies when years begin in March. -/
def marchYear (d : Date) : Int := if d.month ≤ 2 then d.year - 1 else d.year

/-- The month of that year, March being month 0. -/
def marchMonth (d : Date) : Nat := if d.month ≤ 2 then d.month + 9 else d.month - 3

/-- How many days of that year come before a month. -/
def daysBeforeMonth (month : Nat) : Nat := (153 * month + 2) / 5

def marchDay (d : Date) : Nat := daysBeforeMonth d.marchMonth + d.day - 1

def leapDays (year : Int) : Nat := if isLeapYear year then 1 else 0

/-- The days from 1 March of the year 0 to 1 March of a year. -/
def daysBeforeYear (year : Int) : Int := year * 365 + year / 4 - year / 100 + year / 400

theorem dayNumber_eq (d : Date) :
    d.dayNumber = daysBeforeYear d.marchYear + d.marchDay - daysToEpoch := by
  show d.marchYear / 400 * 146097 + ((d.marchYear % 400).toNat * 365 +
    (d.marchYear % 400).toNat / 4 - (d.marchYear % 400).toNat / 100 + d.marchDay : Nat) -
      (daysToEpoch : Int) = _
  rw [daysBeforeYear]
  omega

theorem daysBeforeYear_succ (year : Int) :
    daysBeforeYear (year + 1) = daysBeforeYear year + 365 + leapDays (year + 1) := by
  rw [daysBeforeYear, daysBeforeYear, leapDays]
  split
  · next hleap =>
    rw [isLeapYear_iff] at hleap
    omega
  · next hleap =>
    rw [isLeapYear_iff] at hleap
    omega

theorem daysBeforeYear_mono {year year' : Int} (h : year ≤ year') :
    daysBeforeYear year ≤ daysBeforeYear year' := by
  rw [daysBeforeYear, daysBeforeYear]
  omega

theorem month_of_isValid {d : Date} (h : d.IsValid) : 1 ≤ d.month ∧ d.month ≤ 12 := by
  have hpos : 0 < daysInMonth d.year d.month := Nat.lt_of_lt_of_le h.1 h.2
  unfold daysInMonth at hpos
  split at hpos <;> omega

theorem daysInMonth_february (year : Int) : daysInMonth year 2 = 28 + leapDays year := by
  rw [daysInMonth, leapDays]
  split <;> rfl

/-- January and February close the year before, every other month lies in the year of the date. -/
theorem march_cases {d : Date} (h : d.IsValid) :
    1 ≤ d.month ∧ d.month ≤ 2 ∧ d.marchYear = d.year - 1 ∧ d.marchMonth = d.month + 9 ∨
      3 ≤ d.month ∧ d.month ≤ 12 ∧ d.marchYear = d.year ∧ d.marchMonth = d.month - 3 := by
  obtain ⟨hfirst, hlast⟩ := month_of_isValid h
  by_cases hmonth : d.month ≤ 2
  · exact .inl ⟨hfirst, hmonth, if_pos hmonth, if_pos hmonth⟩
  · exact .inr ⟨by omega, hlast, if_neg hmonth, if_neg hmonth⟩

/-- From March on, months have 31, 30, 31, 30 and 31 days, over and over. -/
theorem daysBeforeMonth_succ (month : Nat) :
    daysBeforeMonth (month + 1) =
      daysBeforeMonth month + if month % 5 = 1 ∨ month % 5 = 3 then 30 else 31 := by
  rw [daysBeforeMonth, daysBeforeMonth]
  split <;> omega

theorem daysBeforeMonth_mono {month month' : Nat} (h : month ≤ month') :
    daysBeforeMonth month ≤ daysBeforeMonth month' := by
  rw [daysBeforeMonth, daysBeforeMonth]
  omega

theorem daysBeforeMonth_add_le {d : Date} (h : d.IsValid) (hmonth : d.month ≠ 2) :
    daysBeforeMonth d.marchMonth + d.day ≤ daysBeforeMonth (d.marchMonth + 1) := by
  have hlength : d.day ≤ 31 ∧
      (d.month = 4 ∨ d.month = 6 ∨ d.month = 9 ∨ d.month = 11 → d.day ≤ 30) := by
    have hday := h.2
    unfold daysInMonth at hday
    split at hday <;> omega
  have hcases := march_cases h
  rw [daysBeforeMonth_succ]
  split <;> omega

/-- February ends the year that begins in March. -/
theorem marchDay_lt {d : Date} (h : d.IsValid) :
    d.marchDay < 365 + leapDays (d.marchYear + 1) := by
  by_cases hmonth : d.month = 2
  · have hday : d.day ≤ 28 + leapDays d.year := by
      rw [← daysInMonth_february, ← hmonth]
      exact h.2
    have hbefore : daysBeforeMonth d.marchMonth = 337 := by
      rw [marchMonth, hmonth]
      rfl
    have hyear : d.marchYear + 1 = d.year := by
      rw [marchYear, hmonth]
      show d.year - 1 + 1 = d.year
      omega
    rw [marchDay, hbefore, hyear]
    omega
  · have hends := daysBeforeMonth_add_le h hmonth
    have hcases := march_cases h
    have hnext : daysBeforeMonth (d.marchMonth + 1) ≤ daysBeforeMonth 11 :=
      daysBeforeMonth_mono (by omega)
    have hlast : daysBeforeMonth 11 = 337 := rfl
    have hpos := h.1
    rw [marchDay]
    omega

theorem dayNumber_lt_of_march {d e : Date} (hd : d.IsValid)
    (h : d.marchYear < e.marchYear ∨ d.marchYear = e.marchYear ∧ d.marchDay < e.marchDay) :
    d.dayNumber < e.dayNumber := by
  rw [dayNumber_eq, dayNumber_eq]
  rcases h with hyear | ⟨hyear, hday⟩
  · have hend := marchDay_lt hd
    have hsucc := daysBeforeYear_succ d.marchYear
    have hmono := daysBeforeYear_mono (show d.marchYear + 1 ≤ e.marchYear from hyear)
    omega
  · rw [hyear]
    omega

theorem marchDay_lt_of_month {d e : Date} (hd : d.IsValid) (he : e.IsValid) (hmonth : d.month ≠ 2)
    (h : d.marchMonth < e.marchMonth) : d.marchDay < e.marchDay := by
  have hends := daysBeforeMonth_add_le hd hmonth
  have hmono := daysBeforeMonth_mono (show d.marchMonth + 1 ≤ e.marchMonth from h)
  have hposd := hd.1
  have hpose := he.1
  rw [marchDay, marchDay]
  omega

theorem dayNumber_lt {d e : Date} (hd : d.IsValid) (he : e.IsValid) (h : d < e) :
    d.dayNumber < e.dayNumber := by
  refine dayNumber_lt_of_march hd ?_
  have hcases := march_cases hd
  have hcases' := march_cases he
  by_cases hmonths : d.year = e.year ∧ d.month = e.month
  · obtain ⟨hyear, hmonth⟩ := hmonths
    have hday : d.day < e.day := by
      rw [lt_iff] at h
      omega
    have hsame : d.marchMonth = e.marchMonth := by omega
    refine .inr ⟨by omega, ?_⟩
    have hpos := hd.1
    rw [marchDay, marchDay, hsame]
    omega
  · -- the years that begin in March decide, or within one of them the months
    rw [lt_iff] at h
    by_cases hyear : d.marchYear < e.marchYear
    · exact .inl hyear
    · exact .inr ⟨by omega, marchDay_lt_of_month hd he (by omega) (by omega)⟩

theorem dayNumber_lt_iff {d e : Date} (hd : d.IsValid) (he : e.IsValid) :
    d.dayNumber < e.dayNumber ↔ d < e := by
  refine ⟨fun h => ?_, dayNumber_lt hd he⟩
  rcases lt_trichotomy d e with hbefore | rfl | hafter
  · exact hbefore
  · omega
  · have := dayNumber_lt he hd hafter
    omega

theorem ofDayNumber_lt_iff {m n : Int} : ofDayNumber m < ofDayNumber n ↔ m < n := by
  rw [← dayNumber_lt_iff (isValid_ofDayNumber m) (isValid_ofDayNumber n), dayNumber_ofDayNumber,
    dayNumber_ofDayNumber]

theorem ofDayNumber_dayNumber {d : Date} (h : d.IsValid) : ofDayNumber d.dayNumber = d := by
  have hvalid := isValid_ofDayNumber d.dayNumber
  have hnumber := dayNumber_ofDayNumber d.dayNumber
  -- two different dates would have different numbers
  rcases lt_trichotomy (ofDayNumber d.dayNumber) d with hbefore | heq | hafter
  · have := dayNumber_lt hvalid h hbefore
    omega
  · exact heq
  · have := dayNumber_lt h hvalid hafter
    omega

end PolicyBook.Date
