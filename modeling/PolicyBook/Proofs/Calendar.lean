import PolicyBook.Instant
/-!
Days and dates.

A day of an era lies in a century, in a group of four years, in a year and at a place in that year
(`Date.eraDay_cases`), and the formula by which a date is found picks out just these.

* **`Date.dayNumber_ofDayNumber`** — every day is found again from its date;
* **`Date.isValid_ofDayNumber`** — and the calendar has that date;
* **`Instant.year_bounds`** — the years in which instants lie.
-/
namespace PolicyBook

theorem isLeapYear_iff {year : Int} :
    isLeapYear year = true ↔ year % 4 = 0 ∧ (year % 100 ≠ 0 ∨ year % 400 = 0) := by
  simp [isLeapYear]

namespace Date

/-- The place of a day of an era: its century, its group of four years, its year and the day of that
year, counted from March. Only leap years have a day 365: the last of a group of four, unless this
closes a century that is not the fourth. -/
theorem eraDay_cases {n : Nat} (h : n < daysPerEra) :
    ∃ century group year day, century ≤ 3 ∧ group ≤ 24 ∧ year ≤ 3 ∧ day ≤ 365 ∧
      (day = 365 → year = 3 ∧ (group < 24 ∨ century = 3)) ∧
      n = 36524 * century + 1461 * group + 365 * year + day := by
  have hera : daysPerEra = 146097 := rfl
  -- the last day of an era belongs to its fourth century, and so on for groups and years
  let century := min (n / 36524) 3
  let ofCentury := n - 36524 * century
  let group := ofCentury / 1461
  let ofGroup := ofCentury - 1461 * group
  let year := min (ofGroup / 365) 3
  have hcentury : 36524 * century ≤ n ∧ ofCentury ≤ 36524 ∧
      (ofCentury = 36524 → century = 3) := by omega
  have hgroup : group ≤ 24 ∧ ofGroup ≤ 1460 ∧ ofCentury = 1461 * group + ofGroup := by omega
  refine ⟨century, group, year, ofGroup - 365 * year, by omega, by omega, by omega, by omega, ?_,
    by omega⟩
  intro hlast
  omega

theorem yearOfEra_eq {n century group year day : Nat} (hcentury : century ≤ 3)
    (hgroup : group ≤ 24) (hyear : year ≤ 3) (hday : day ≤ 365)
    (hlast : day = 365 → year = 3 ∧ (group < 24 ∨ century = 3))
    (hn : n = 36524 * century + 1461 * group + 365 * year + day) :
    (n - n / 1460 + n / 36524 - n / 146096) / 365 = 100 * century + 4 * group + year := by
  have hcenturies : n / 36524 = century + n / 146096 := by
    rcases Nat.lt_or_ge n 146096 with hlt | hge
    · have : n / 146096 = 0 := Nat.div_eq_of_lt hlt
      have : n / 36524 = century := by
        refine Nat.div_eq_of_lt_le ?_ ?_ <;> omega
      omega
    · obtain rfl : n = 146096 := by omega
      omega
  -- a day is taken off for every leap day that has passed
  obtain ⟨leap, hleaps, hleap⟩ : ∃ leap, n / 1460 = 25 * century + group + leap ∧
      (leap = 0 ∧ 24 * century + group + 365 * year + day < 1460 ∨
        leap = 1 ∧ 1460 ≤ 24 * century + group + 365 * year + day) := by
    rw [show n = 24 * century + group + 365 * year + day + 1460 * (25 * century + group) by omega,
      Nat.add_mul_div_left _ _ (by decide)]
    exact ⟨(24 * century + group + 365 * year + day) / 1460, by omega, by omega⟩
  rw [hcenturies, hleaps]
  generalize n / 146096 = closing
  clear hcenturies hleaps
  refine Nat.div_eq_of_lt_le ?_ ?_
  · omega
  · rcases Nat.lt_or_ge day 365 with hlt | hge
    · omega
    · obtain ⟨rfl, -⟩ := hlast (by omega)
      omega

/-- The date with a year counted from March, a month of that year and a day of that month. -/
def ofMarch (year : Int) (month day : Nat) : Date :=
  if month < 10 then ⟨year, month + 3, day⟩ else ⟨year + 1, month - 9, day⟩

theorem era_cases (n : Int) : ∃ (era : Int) (place : Nat), place < daysPerEra ∧
    n + daysToEpoch = era * daysPerEra + place ∧ (n + daysToEpoch) / daysPerEra = era ∧
    ((n + daysToEpoch) % daysPerEra).toNat = place := by
  have hpos : (0 : Int) < daysPerEra := by decide
  have hnonneg := Int.emod_nonneg (n + daysToEpoch) (Int.ne_of_gt hpos)
  have hlt := Int.emod_lt_of_pos (n + daysToEpoch) hpos
  have hsplit := Int.mul_ediv_add_emod (n + daysToEpoch) daysPerEra
  refine ⟨_, _, ?_, ?_, rfl, rfl⟩
  · omega
  · rw [Int.toNat_of_nonneg hnonneg, Int.mul_comm, hsplit]

theorem ofDayNumber_cases (n : Int) :
    ∃ (era : Int) (year day : Nat), year < 400 ∧ day ≤ 365 ∧
      (day = 365 → isLeapYear (era * 400 + year + 1) = true) ∧
      n + daysToEpoch = era * daysPerEra + (year * 365 + year / 4 - year / 100 + day : Nat) ∧
      ofDayNumber n = ofMarch (era * 400 + year) ((5 * day + 2) / 153)
        (day - (153 * ((5 * day + 2) / 153) + 2) / 5 + 1) := by
  obtain ⟨era, place, hplace, hn, hera, htoNat⟩ := era_cases n
  obtain ⟨century, group, year, day, hcentury, hgroup, hyear, hday, hlast, heq⟩ :=
    eraDay_cases hplace
  have hyearOfEra := yearOfEra_eq hcentury hgroup hyear hday hlast heq
  have hfourth : (100 * century + 4 * group + year) / 4 = 25 * century + group := by omega
  have hhundredth : (100 * century + 4 * group + year) / 100 = century := by omega
  have hdayOfYear : place - (365 * (100 * century + 4 * group + year) + (25 * century + group) -
      century) = day := by omega
  refine ⟨era, 100 * century + 4 * group + year, day, by omega, hday, ?_, ?_, ?_⟩
  · intro hleap
    obtain ⟨rfl, hclosing⟩ := hlast hleap
    rw [isLeapYear_iff]
    omega
  · rw [hn, hfourth, hhundredth]
    omega
  · simp only [ofDayNumber, hera, htoNat, hyearOfEra, hfourth, hhundredth, hdayOfYear]
    rfl

theorem dayNumber_ofDayNumber (n : Int) : (ofDayNumber n).dayNumber = n := by
  obtain ⟨era, year, day, hyear, hday, -, hn, hdate⟩ := ofDayNumber_cases n
  have hera : daysPerEra = 146097 := rfl
  have hyearOfEra : ((era * 400 + year) % 400).toNat = year := by omega
  have hcount : (era * 400 + year) / 400 = era := by omega
  rw [hdate, ofMarch]
  split
  · next hmonth =>
    simp only [dayNumber, if_neg (show ¬(5 * day + 2) / 153 + 3 ≤ 2 by omega),
      Nat.add_sub_cancel, hyearOfEra, hcount]
    omega
  · next hmonth =>
    simp only [dayNumber, if_pos (show (5 * day + 2) / 153 - 9 ≤ 2 by omega),
      show (5 * day + 2) / 153 - 9 + 9 = (5 * day + 2) / 153 by omega,
      Int.add_sub_cancel, hyearOfEra, hcount]
    omega

theorem isValid_ofDayNumber (n : Int) : (ofDayNumber n).IsValid := by
  obtain ⟨era, year, day, -, hday, hleap, -, hdate⟩ := ofDayNumber_cases n
  rw [hdate]
  generalize hmonth : (5 * day + 2) / 153 = month
  refine ⟨?_, ?_⟩
  · rw [ofMarch]
    split <;> exact Nat.le_add_left 1 _
  · -- month by month, February last
    obtain rfl | rfl | rfl | rfl | rfl | rfl | rfl | rfl | rfl | rfl | rfl | rfl :
        month = 0 ∨ month = 1 ∨ month = 2 ∨ month = 3 ∨ month = 4 ∨ month = 5 ∨ month = 6 ∨
          month = 7 ∨ month = 8 ∨ month = 9 ∨ month = 10 ∨ month = 11 := by omega
    case inr.inr.inr.inr.inr.inr.inr.inr.inr.inr.inr =>
      show day - 337 + 1 ≤ if isLeapYear (era * 400 + year + 1) then 29 else 28
      split
      · omega
      · next hcommon =>
        have : day ≠ 365 := fun hlast => hcommon (hleap hlast)
        omega
    all_goals
      simp [ofMarch, daysInMonth]
      omega

theorem month_ofDayNumber (n : Int) :
    1 ≤ (ofDayNumber n).month ∧ (ofDayNumber n).month ≤ 12 := by
  obtain ⟨era, year, day, -, hday, -, -, hdate⟩ := ofDayNumber_cases n
  rw [hdate, ofMarch]
  split
  · exact ⟨Nat.le_add_left 1 _, by show _ + 3 ≤ 12; omega⟩
  · exact ⟨by show 1 ≤ _ - 9; omega, by show _ - 9 ≤ 12; omega⟩

theorem day_ofDayNumber_le (n : Int) : (ofDayNumber n).day ≤ 31 := by
  have hvalid := (isValid_ofDayNumber n).2
  have hdays : ∀ year month, daysInMonth year month ≤ 31 := by
    intro year month
    unfold daysInMonth
    split <;> try split
    all_goals decide
  exact Nat.le_trans hvalid (hdays _ _)

/-- The first and the last day of the calendar of instants lie in the years that it ends with. -/
theorem year_ofDayNumber {n : Int} (hfirst : -96465292 ≤ n) (hlast : n ≤ 95026236) :
    -262143 ≤ (ofDayNumber n).year ∧ (ofDayNumber n).year ≤ 262142 := by
  obtain ⟨era, year, day, hyear, hday, -, hn, hdate⟩ := ofDayNumber_cases n
  have hera : (daysPerEra : Int) = 146097 := rfl
  have hepoch : (daysToEpoch : Int) = 719468 := rfl
  rw [hera, hepoch] at hn
  rw [hdate, ofMarch]
  split
  · next hmonth =>
    show -262143 ≤ era * 400 + year ∧ era * 400 + year ≤ 262142
    refine ⟨?_, by omega⟩
    -- a day before January of the first year would lie in the year before
    rcases Nat.lt_trichotomy year 256 with hlt | rfl | hgt <;> omega
  · next hmonth =>
    show -262143 ≤ era * 400 + year + 1 ∧ era * 400 + year + 1 ≤ 262142
    refine ⟨by omega, ?_⟩
    -- and a day of the last year has an earlier March, or an earlier era
    rcases Nat.lt_or_ge 142 year with hgt | hle
    · have : era < 655 := by omega
      omega
    · rcases Nat.lt_or_eq_of_le hle with hlt | rfl <;> omega

end Date

theorem Instant.year_bounds (t : Instant) : -262143 ≤ t.date.year ∧ t.date.year ≤ 262142 := by
  have hfirst := t.first_le
  have hlast := t.le_last
  exact Date.year_ofDayNumber (by omega) (by omega)

end PolicyBook
