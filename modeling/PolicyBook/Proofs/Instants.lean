import PolicyBook.Instant.Reading
import PolicyBook.Proofs.Calendar
import PolicyBook.Proofs.Numerals
/-!
Instants read back.

An instant is written with everything that it consists of, so the lenient reading finds it again:

* **`Instant.ofText?_text`** — every instant is read back from its text, leap seconds, fractions and
  years of more than four digits included;
* **`Instant.text_injective`** — so different instants have different texts.
-/
namespace PolicyBook

open Text

namespace Text

theorem padded_eq_cons (width n : Nat) :
    ∃ c cs, padded width n = c :: cs ∧ c.isDigit = true := by
  obtain ⟨c, cs, hcs⟩ := List.exists_cons_of_ne_nil (padded_ne_nil width n)
  exact ⟨c, cs, hcs, isDigit_of_mem_padded (hcs ▸ List.mem_cons_self)⟩

theorem trimmedStart_padded (width n : Nat) (rest : List Char) :
    trimmedStart (padded width n ++ rest) = padded width n ++ rest := by
  obtain ⟨c, cs, hcs, hdigit⟩ := padded_eq_cons width n
  refine trimmedStart_eq_self_iff.2 fun d hd => ?_
  rw [hcs] at hd
  obtain rfl : c = d := Option.some_inj.1 hd
  exact isBlank_of_isDigit hdigit

/-- A padded number of any length is read back, as long as no digit follows it. -/
theorem longNumber?_padded (width n : Nat) {rest : List Char} (hrest : Undigited rest) :
    longNumber? (padded width n ++ rest) = some (n, rest) := by
  have hdigits : digits (padded width n ++ rest).length (padded width n ++ rest) = _ :=
    digits_append _ (fun _ => isDigit_of_mem_padded)
      (by rw [List.length_append]; exact Nat.le_add_right _ _) (.inl hrest)
  rw [longNumber?, number?_of_digits hdigits (map_digitValue_padded_ne_nil width n),
    ofDigits_padded]

end Text

namespace Instant

theorem spacedMark?_cons {c : Char} (hc : isBlank c = false) (rest : List Char) :
    spacedMark? c (c :: rest) = some rest := by
  rw [spacedMark?, trimmedStart_eq_self_iff.2 (by simpa using hc)]
  exact if_pos rfl

theorem spacedNumber?_padded {n : Nat} (h : n < 100) (rest : List Char) :
    spacedNumber? 2 (padded 2 n ++ rest) = some (n, rest) := by
  rw [spacedNumber?, trimmedStart_padded]
  exact number?_padded (by decide) (Nat.le_refl 2) h (.inr rfl)

theorem year?_yearText (year : Int) (rest : List Char) :
    year? (Date.yearText year ++ '-' :: rest) = some (year, '-' :: rest) := by
  have hrest : Undigited ('-' :: rest) := undigited_cons.2 rfl
  rw [Date.yearText]
  -- a year of four digits has no sign, every other one has
  split
  · next hfour =>
    have hsmall : year.toNat < 10000 := by omega
    obtain ⟨c, cs, hcs, hdigit⟩ := padded_eq_cons 4 year.toNat
    have hnumber : number? 4 (padded 4 year.toNat ++ '-' :: rest) =
        some (year.toNat, '-' :: rest) :=
      number?_padded (by decide) (Nat.le_refl 4) hsmall (.inl hrest)
    rw [year?, trimmedStart_padded]
    rw [hcs, List.cons_append] at hnumber ⊢
    split
    · next hsign =>
      obtain rfl := (List.cons.inj hsign).1
      exact absurd hdigit (by decide)
    · next hsign =>
      obtain rfl := (List.cons.inj hsign).1
      exact absurd hdigit (by decide)
    · rw [hnumber]
      exact congrArg some (Prod.ext (Int.toNat_of_nonneg hfour.1) rfl)
  · next hlong =>
    have hnumber := longNumber?_padded 4 year.natAbs hrest
    have hsigned (c : Char) (hc : isBlank c = false) (cs : List Char) :
        trimmedStart (c :: cs) = c :: cs :=
      trimmedStart_eq_self_iff.2 (by simpa using hc)
    by_cases hnegative : year < 0
    · rw [if_pos hnegative, List.cons_append, year?, hsigned _ rfl]
      simp only [hnumber]
      exact congrArg some (Prod.ext (by show -(year.natAbs : Int) = year; omega) rfl)
    · rw [if_neg hnegative, List.cons_append, year?, hsigned _ rfl]
      simp only [hnumber]
      exact congrArg some (Prod.ext (by show (year.natAbs : Int) = year; omega) rfl)

theorem fraction?_of_digits {cs rest : List Char} {ds : List Nat}
    (h : digits 9 cs = (ds, rest)) (hne : ds ≠ []) :
    fraction? cs = some (ofDigits ds * tenTo (9 - ds.length), dropDigits rest) := by
  rw [fraction?, h]
  cases ds with
  | nil => exact absurd rfl hne
  | cons d ds => rfl

theorem optionalFraction?_fractionText (t : Instant) :
    optionalFraction? (t.fractionText ++ ['Z']) = some (t.nanos % nanosPerSecond, ['Z']) := by
  have hz : Undigited ['Z'] := undigited_cons.2 rfl
  have hread (width n : Nat) (hpos : 0 < width) (hwidth : width ≤ 9) (hn : n < tenTo width) :
      optionalFraction? ('.' :: padded width n ++ ['Z']) = some (n * tenTo (9 - width), ['Z']) := by
    have hdigits := digits_padded hpos hwidth hn (.inl hz)
    show fraction? (padded width n ++ ['Z']) = _
    rw [fraction?_of_digits hdigits (map_digitValue_padded_ne_nil width n), ofDigits_padded,
      List.length_map, length_padded hpos hn]
    rfl
  have hlt : t.nanos % nanosPerSecond < 1000000000 := Nat.mod_lt _ (by decide)
  rw [fractionText]
  generalize t.nanos % nanosPerSecond = n at *
  show optionalFraction? ((if n = 0 then [] else _) ++ ['Z']) = _
  by_cases hzero : n = 0
  · rw [if_pos hzero, hzero]
    rfl
  · rw [if_neg hzero]
    by_cases hmillis : n % 1000000 = 0
    · rw [if_pos hmillis, hread 3 (n / 1000000) (by decide) (by decide)
        (show n / 1000000 < 1000 by omega)]
      refine congrArg some (Prod.ext ?_ rfl)
      show n / 1000000 * 1000000 = n
      omega
    · rw [if_neg hmillis]
      by_cases hmicros : n % 1000 = 0
      · rw [if_pos hmicros, hread 6 (n / 1000) (by decide) (by decide)
          (show n / 1000 < 1000000 by omega)]
        refine congrArg some (Prod.ext ?_ rfl)
        show n / 1000 * 1000 = n
        omega
      · rw [if_neg hmicros, hread 9 n (by decide) (by decide) hlt]
        refine congrArg some (Prod.ext ?_ rfl)
        show n * 1 = n
        omega

/-- What a clock in universal time shows at an instant. -/
def reading (t : Instant) : ClockReading where
  date := t.date
  hour := t.secondOfDay / 3600
  minute := t.secondOfDay / 60 % 60
  second := t.secondOfDay % 60 + if t.isLeap then 1 else 0
  nanos := t.nanos % nanosPerSecond
  offset := 0

theorem instant?_reading (t : Instant) : t.reading.instant? = some t := by
  have hday : t.date.dayNumber = t.seconds / 86400 := Date.dayNumber_ofDayNumber _
  have hsecond : (t.secondOfDay : Int) = t.seconds % 86400 :=
    Int.toNat_of_nonneg (Int.emod_nonneg _ (by decide))
  have hnanos := t.nanos_lt
  have hbillion : nanosPerSecond = 1000000000 := rfl
  have hshown : (-262143 ≤ t.reading.date.year ∧ t.reading.date.year ≤ 262142 ∧
      t.reading.date.IsValid) ∧ t.reading.hour ≤ 23 ∧ t.reading.minute ≤ 59 ∧
      t.reading.second ≤ 60 ∧ t.reading.offset.natAbs < 86400 := by
    refine ⟨⟨t.year_bounds.1, t.year_bounds.2, Date.isValid_ofDayNumber _⟩, ?_, ?_, ?_,
      show (0 : Int).natAbs < 86400 by decide⟩
    · show t.secondOfDay / 3600 ≤ 23
      omega
    · show t.secondOfDay / 60 % 60 ≤ 59
      omega
    · show t.secondOfDay % 60 + (if t.isLeap then 1 else 0) ≤ 60
      split <;> omega
  rw [ClockReading.instant?, if_pos hshown]
  show (if t.secondOfDay % 60 + (if t.isLeap then 1 else 0) = 60 then
      ofParts? (t.date.dayNumber * 86400 + (t.secondOfDay / 3600 : Nat) * 3600 +
        (t.secondOfDay / 60 % 60 : Nat) * 60 + 59 - 0) (nanosPerSecond + t.nanos % nanosPerSecond)
    else ofParts? (t.date.dayNumber * 86400 + (t.secondOfDay / 3600 : Nat) * 3600 +
        (t.secondOfDay / 60 % 60 : Nat) * 60 +
        (t.secondOfDay % 60 + (if t.isLeap then 1 else 0) : Nat) - 0)
        (t.nanos % nanosPerSecond)) = some t
  -- in a leap second the clock shows 60, and the reading adds the second to the nanoseconds
  by_cases hleap : t.isLeap = true
  · have hge : nanosPerSecond ≤ t.nanos := by simpa [isLeap] using hleap
    have hlast := t.leap hge
    rw [if_pos hleap, if_pos (by omega)]
    have hseconds : t.date.dayNumber * 86400 + (t.secondOfDay / 3600 : Nat) * 3600 +
        (t.secondOfDay / 60 % 60 : Nat) * 60 + 59 - 0 = t.seconds := by omega
    have hnano : nanosPerSecond + t.nanos % nanosPerSecond = t.nanos := by
      rw [Nat.mod_eq_sub_mod hge, Nat.mod_eq_of_lt (by omega)]
      omega
    rw [hseconds, hnano, ofParts?_self]
  · have hlt : t.nanos < nanosPerSecond := by simpa [isLeap] using hleap
    rw [if_neg hleap, if_neg (by omega)]
    have hseconds : t.date.dayNumber * 86400 + (t.secondOfDay / 3600 : Nat) * 3600 +
        (t.secondOfDay / 60 % 60 : Nat) * 60 + (t.secondOfDay % 60 + 0 : Nat) - 0 = t.seconds := by
      omega
    rw [hseconds, Nat.mod_eq_of_lt hlt, ofParts?_self]

theorem ofText?_text (t : Instant) : ofText? t.text = some t := by
  have hmonth : t.date.month < 100 :=
    Nat.lt_of_le_of_lt (Date.month_ofDayNumber (t.seconds / 86400)).2 (by decide)
  have hday : t.date.day < 100 :=
    Nat.lt_of_le_of_lt (Date.day_ofDayNumber_le (t.seconds / 86400)) (by decide)
  have hsecond : t.secondOfDay < 86400 := by
    have := Int.emod_lt_of_pos t.seconds (show (0 : Int) < 86400 by decide)
    rw [secondOfDay]
    omega
  have hhour : t.secondOfDay / 3600 < 100 := by omega
  have hminute : t.secondOfDay / 60 % 60 < 100 := by omega
  have hclock : t.secondOfDay % 60 + (if t.isLeap then 1 else 0) < 100 := by split <;> omega
  have htext : t.text.toList = Date.yearText t.date.year ++ '-' :: (padded 2 t.date.month ++
      '-' :: (padded 2 t.date.day ++ 'T' :: (padded 2 (t.secondOfDay / 3600) ++
        ':' :: (padded 2 (t.secondOfDay / 60 % 60) ++
          ':' :: (padded 2 (t.secondOfDay % 60 + if t.isLeap then 1 else 0) ++
            (t.fractionText ++ ['Z'])))))) := by
    simp [text, timeText, Date.text]
  rw [ofText?, htext]
  -- one reading after another takes off what was written
  refine (bind_of_eq (year?_yearText ..) _).trans ?_
  refine (bind_of_eq (spacedMark?_cons rfl _) _).trans ?_
  refine (bind_of_eq (spacedNumber?_padded hmonth _) _).trans ?_
  refine (bind_of_eq (spacedMark?_cons rfl _) _).trans ?_
  refine (bind_of_eq (spacedNumber?_padded hday _) _).trans ?_
  refine (bind_of_eq (show separator? ('T' :: _) = some _ from rfl) _).trans ?_
  refine (bind_of_eq (spacedNumber?_padded hhour _) _).trans ?_
  refine (bind_of_eq (spacedMark?_cons rfl _) _).trans ?_
  refine (bind_of_eq (spacedNumber?_padded hminute _) _).trans ?_
  refine (bind_of_eq (spacedMark?_cons rfl _) _).trans ?_
  refine (bind_of_eq (spacedNumber?_padded hclock _) _).trans ?_
  refine (bind_of_eq t.optionalFraction?_fractionText _).trans ?_
  refine (bind_of_eq (show offset? (trimmedStart ['Z']) = some (0, []) by decide) _).trans ?_
  exact t.instant?_reading

theorem text_injective {s t : Instant} (h : s.text = t.text) : s = t := by
  have hs := ofText?_text s
  rw [h, ofText?_text] at hs
  exact (Option.some_inj.1 hs).symm

end Instant

end PolicyBook
