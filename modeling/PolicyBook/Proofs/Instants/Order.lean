import PolicyBook.Proofs.Bytes
import PolicyBook.Proofs.Instants.Precision
import Mathlib.Order.Defs.Unbundled
/-!
The order of time stamps.

Plain spellings have their parts in the order of their weight, all of one width, and years are
compared before months, months before days. So the spellings of the years 0 to 9999 are in the order
of their characters, and these in the order of their bytes, exactly if the moments follow one
another. Instants with a fraction, leap seconds included, are in order by their nanoseconds as well.

* **`Instant.Spelling.chars_lt_iff`** — plain spellings are in the order of what they spell;
* **`Instant.orders_agree`** — the orders of instants, of their seconds and of their texts agree.
-/
namespace PolicyBook

open Text

namespace Instant

/-! ### Spellings in order -/

namespace Spelling

variable {v w : Spelling}

/-- Two digits and a mark come before others if their number is smaller, or if what follows does. -/
theorem part_lt_iff {m n : Nat} (hm : m < 100) (hn : n < 100) (mark : Char) (r s : List Char) :
    padded 2 m ++ mark :: r < padded 2 n ++ mark :: s ↔ m < n ∨ m = n ∧ r < s := by
  rw [padded_append_lt_iff (by decide) hm hn, List.cons_lt_cons_self]

theorem chars_lt_iff_parts (hv : v.IsAllowed) (hw : w.IsAllowed) (hvplain : v.IsPlain)
    (hwplain : w.IsPlain) :
    v.chars < w.chars ↔ v.year < w.year ∨ v.year = w.year ∧ (v.month < w.month ∨
      v.month = w.month ∧ (v.day < w.day ∨ v.day = w.day ∧ (v.hour < w.hour ∨ v.hour = w.hour ∧
        (v.minute < w.minute ∨ v.minute = w.minute ∧ v.second < w.second)))) := by
  have hsmall {n limit : Nat} (h : n ≤ limit) (hlimit : limit < 100) : n < 100 :=
    Nat.lt_of_le_of_lt h hlimit
  have hend : ¬fractionSpelling [] ++ ['Z'] < fractionSpelling [] ++ ['Z'] := List.lt_irrefl _
  rw [chars, chars, hvplain.separator, hwplain.separator, hvplain.fraction, hwplain.fraction,
    padded_append_lt_iff (by decide) (Nat.lt_succ_of_le hv.year_le) (Nat.lt_succ_of_le hw.year_le),
    List.cons_lt_cons_self,
    part_lt_iff (hsmall hv.month_le (by decide)) (hsmall hw.month_le (by decide)),
    part_lt_iff (hsmall hv.day_le (by decide)) (hsmall hw.day_le (by decide)),
    part_lt_iff (hsmall hv.hour_le (by decide)) (hsmall hw.hour_le (by decide)),
    part_lt_iff (hsmall hv.minute_le (by decide)) (hsmall hw.minute_le (by decide)),
    padded_append_lt_iff (by decide) (hsmall hv.second_le (by decide))
      (hsmall hw.second_le (by decide))]
  simp only [hend, and_false, or_false]

theorem chars_lt_iff (hv : v.IsAllowed) (hw : w.IsAllowed) (hvplain : v.IsPlain)
    (hwplain : w.IsPlain) : v.chars < w.chars ↔ v.seconds < w.seconds := by
  -- of two dates with one number neither comes first
  have hbefore := Date.dayNumber_lt_iff hv.date_isValid hw.date_isValid
  have hbehind := Date.dayNumber_lt_iff hw.date_isValid hv.date_isValid
  rw [Date.lt_iff] at hbefore hbehind
  have hvhour := hv.hour_le
  have hwhour := hw.hour_le
  have hvminute := hv.minute_le
  have hwminute := hw.minute_le
  have hvsecond := hvplain.second_lt
  have hwsecond := hwplain.second_lt
  rw [chars_lt_iff_parts hv hw hvplain hwplain, seconds, seconds]
  simp only [date] at *
  omega

end Spelling

/-! ### Instants in order -/

variable {s t : Instant}

instance : IsStrictTotalOrder Instant (· < ·) where
  irrefl := lt_irrefl
  trans _ _ _ := lt_trans
  trichotomous s t hst hts := by
    rcases lt_trichotomy s t with hlt | heq | hgt
    · exact absurd hlt hst
    · exact heq
    · exact absurd hgt hts

theorem seconds_le_of_lt (h : s < t) : s.seconds ≤ t.seconds := by
  rw [lt_iff] at h
  omega

theorem lt_iff_seconds_lt (hs : s.nanos = 0) (ht : t.nanos = 0) :
    s < t ↔ s.seconds < t.seconds := by
  rw [lt_iff]
  omega

theorem seconds_lt_iff_iso_lt (hs : s.nanos = 0) (ht : t.nanos = 0) (hsfour : s.HasFourDigits)
    (htfour : t.HasFourDigits) :
    s.seconds < t.seconds ↔ s.iso.toUTF8.toList < t.iso.toUTF8.toList := by
  have hsallowed := isAllowed_spelling hsfour
  have htallowed := isAllowed_spelling htfour
  rw [iso_eq hsfour, iso_eq htfour, bytes_lt_iff,
    Spelling.chars_lt_iff hsallowed htallowed (isPlain_spelling hs) (isPlain_spelling ht),
    seconds_spelling hsfour, seconds_spelling htfour]

def minute (t : Instant) : Int := t.seconds / 60

theorem lt_of_minute_lt (h : s.minute < t.minute) : s < t := by
  rw [minute, minute] at h
  exact .inl (by omega)

theorem second_reading_iff : t.reading.second = 60 ↔ nanosPerSecond ≤ t.nanos := by
  rw [← isLeap_iff]
  show t.secondOfDay % 60 + (if t.isLeap then 1 else 0) = 60 ↔ _
  constructor
  · intro h
    by_cases hleap : t.isLeap = true
    · exact hleap
    · rw [if_neg hleap] at h
      omega
  · intro h
    rw [if_pos h, secondOfDay_of_isLeap h]

/-- A leap second comes after everything else in its minute. -/
theorem lt_of_reading {leap : Instant} (hleap : leap.reading.second = 60)
    (hminute : t.minute = leap.minute) (ht : t.reading.second < 60) : t < leap := by
  have hlate := second_reading_iff.1 hleap
  have hearly := mt second_reading_iff.2 (Nat.ne_of_lt ht)
  -- its second is the last one that is counted in the minute
  have hlast := leap.leap hlate
  rw [minute, minute] at hminute
  rw [lt_iff]
  omega

/-- Time stamps that are taken to the second are in the order of their seconds, which in the years 0
to 9999 is the order of the bytes by which they are shown. All instants are in a total order that
follows the seconds, and a leap second lies between the rest of its minute and the next one. -/
theorem orders_agree :
    (∀ (a b : Source) (s t : Instant), a.Truncates → b.Truncates →
      a.instant? = some s → b.instant? = some t → s.HasFourDigits → t.HasFourDigits →
      (s < t ↔ s.seconds < t.seconds) ∧
        (s.seconds < t.seconds ↔ s.iso.toUTF8.toList < t.iso.toUTF8.toList)) ∧
    IsStrictTotalOrder Instant (· < ·) ∧
    (∀ s t : Instant, s < t → s.seconds ≤ t.seconds) ∧
    ∀ leap t : Instant, leap.reading.second = 60 →
      (t.minute = leap.minute → t.reading.second < 60 → t < leap) ∧
        (leap.minute < t.minute → leap < t) := by
  refine ⟨?_, inferInstance, fun s t => seconds_le_of_lt, ?_⟩
  · intro a b s t ha hb hs ht hsfour htfour
    have hswhole := ha.nanos_eq hs
    have htwhole := hb.nanos_eq ht
    exact ⟨lt_iff_seconds_lt hswhole htwhole,
      seconds_lt_iff_iso_lt hswhole htwhole hsfour htfour⟩
  · intro leap t hleap
    exact ⟨lt_of_reading hleap, lt_of_minute_lt⟩

/-- The end of a leap day, and a leap second at the end of a year. -/
theorem yearEnd_ordered :
    let before : Instant := ⟨951868799, 0, by decide, by decide, by decide, by decide⟩
    let behind : Instant := ⟨951868800, 0, by decide, by decide, by decide, by decide⟩
    let last : Instant := ⟨1483228799, 999999999, by decide, by decide, by decide, by decide⟩
    let leap : Instant := ⟨1483228799, 1500000000, by decide, by decide, by decide, by decide⟩
    let next : Instant := ⟨1483228800, 0, by decide, by decide, by decide, by decide⟩
    ((Source.text "2000-02-29T23:59:59.9Z").instant? = some before ∧
      (Source.seconds 951868800).instant? = some behind ∧
      (before < behind ↔ before.seconds < behind.seconds) ∧
      (before.seconds < behind.seconds ↔ before.iso.toUTF8.toList < behind.iso.toUTF8.toList)) ∧
    (Source.document (.value (.str "2016-12-31T23:59:60.5Z"))).instant? = some leap ∧
    leap.reading.second = 60 ∧ last < leap ∧ leap < next := by
  intro before behind last leap next
  obtain ⟨hagree, -, -, hbetween⟩ := orders_agree
  have hbefore : (Source.text "2000-02-29T23:59:59.9Z").instant? = some before := by rfl
  have hbehind : (Source.seconds 951868800).instant? = some behind := by rfl
  have hleap : leap.reading.second = 60 := by decide
  obtain ⟨hlt, hbytes⟩ := hagree (.text _) (.seconds _) before behind trivial trivial hbefore
    hbehind (hasFourDigits_iff.2 (by decide)) (hasFourDigits_iff.2 (by decide))
  exact ⟨⟨hbefore, hbehind, hlt, hbytes⟩, by rfl, hleap,
    (hbetween leap last hleap).1 (by decide) (by decide),
    (hbetween leap next hleap).2 (by decide)⟩

end Instant

end PolicyBook
