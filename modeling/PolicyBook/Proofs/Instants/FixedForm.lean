import PolicyBook.Proofs.Instants.FixedReading
/-!
The fixed form of time stamps.

Of the spellings of a second one is plain, and that is how an instant is shown. So what is shown is
read back, and what was read in its plain spelling is shown as it was.

* **`Instant.iso_eq`**, **`Instant.spelling_eq`** — how an instant of the years 0 to 9999 is shown;
* **`Instant.fixedForm_restored`** — seconds and time stamps go to and fro without loss.
-/
namespace PolicyBook

open Text

namespace Instant

/-! ### Showing -/

/-- How an instant of the years 0 to 9999 is shown. -/
def spelling (t : Instant) : Spelling where
  year := t.date.year.toNat
  month := t.date.month
  day := t.date.day
  separator := 'T'
  hour := t.secondOfDay / 3600
  minute := t.secondOfDay / 60 % 60
  second := t.secondOfDay % 60 + if t.isLeap then 1 else 0
  fraction := []

theorem secondOfDay_eq (t : Instant) :
    (t.secondOfDay : Int) = t.seconds % 86400 ∧ t.secondOfDay < 86400 := by
  have hnonneg := Int.emod_nonneg t.seconds (show (86400 : Int) ≠ 0 by decide)
  have hlt := Int.emod_lt_of_pos t.seconds (show (0 : Int) < 86400 by decide)
  rw [secondOfDay]
  omega

theorem isLeap_iff {t : Instant} : t.isLeap = true ↔ nanosPerSecond ≤ t.nanos := by
  rw [isLeap, decide_eq_true_iff]

theorem secondOfDay_of_isLeap {t : Instant} (h : t.isLeap = true) : t.secondOfDay % 60 = 59 := by
  have hleap := t.leap (isLeap_iff.1 h)
  have hday := t.secondOfDay_eq.1
  omega

section

variable {t : Instant}

theorem date_spelling (h : t.HasFourDigits) : t.spelling.date = t.date :=
  Date.ext (Int.toNat_of_nonneg h.1) rfl rfl

theorem isAllowed_spelling (h : t.HasFourDigits) : t.spelling.IsAllowed := by
  have hday := t.secondOfDay_eq.2
  constructor
  case year_le =>
    obtain ⟨hlow, hhigh⟩ := h
    show t.date.year.toNat ≤ 9999
    omega
  case date_isValid =>
    rw [date_spelling h]
    exact Date.isValid_ofDayNumber _
  case separator => exact .inl rfl
  case hour_le =>
    show t.secondOfDay / 3600 ≤ 23
    omega
  case minute_le =>
    show t.secondOfDay / 60 % 60 ≤ 59
    omega
  case second_le =>
    show t.secondOfDay % 60 + (if t.isLeap then 1 else 0) ≤ 60
    split <;> omega
  case fraction => exact fun c hc => absurd hc (by simp [spelling])

theorem seconds_spelling (h : t.HasFourDigits) : t.spelling.seconds = t.seconds := by
  have hday : t.date.dayNumber = t.seconds / 86400 := Date.dayNumber_ofDayNumber _
  have hsecond := t.secondOfDay_eq.1
  rw [Spelling.seconds, date_spelling h, hday]
  show t.seconds / 86400 * 86400 + (t.secondOfDay / 3600 : Nat) * 3600 +
    (t.secondOfDay / 60 % 60 : Nat) * 60 +
      (min (t.secondOfDay % 60 + if t.isLeap then 1 else 0) 59 : Nat) = t.seconds
  -- a leap second is shown as second 60 and counted as second 59
  split
  · next hleap =>
    have := secondOfDay_of_isLeap hleap
    omega
  · omega

theorem iso_eq (h : t.HasFourDigits) : t.iso = String.ofList t.spelling.chars := by
  have hyear : Date.yearText t.date.year = padded 4 t.date.year.toNat := if_pos h
  rw [iso, Date.text, hyear, timeText]
  simp [Spelling.chars, spelling, fractionSpelling]

theorem parse_iso (h : t.HasFourDigits) : parse t.iso = .ok t.truncated := by
  rw [parse_eq_ok_iff, iso_eq h, String.toList_ofList]
  exact ⟨t.spelling, isAllowed_spelling h, rfl, (seconds_spelling h).symm, rfl⟩

theorem truncated_eq (h : t.nanos = 0) : t.truncated = t := ext rfl h.symm

theorem isLeap_of_nanos (h : t.nanos = 0) : t.isLeap = false := by
  rw [isLeap, h]
  rfl

theorem spelling_eq {w : Spelling} (hw : w.IsAllowed) (hplain : w.IsPlain)
    (hseconds : t.seconds = w.seconds) (hnanos : t.nanos = 0) : t.spelling = w := by
  have hhour := hw.hour_le
  have hminute := hw.minute_le
  have hsecond := hplain.second_lt
  have hshown := t.secondOfDay_eq.1
  rw [Spelling.seconds] at hseconds
  have hday : t.seconds / 86400 = w.date.dayNumber := by omega
  have hdate : t.date = w.date := by
    rw [date, hday]
    exact Date.ofDayNumber_dayNumber hw.date_isValid
  have hleap := isLeap_of_nanos hnanos
  have htime : t.secondOfDay = w.hour * 3600 + w.minute * 60 + w.second := by omega
  obtain ⟨year, month, day, separator, hour, minute, second, fraction⟩ := w
  obtain ⟨rfl, rfl, -⟩ := hplain
  simp only [spelling, hdate, htime, hleap, Spelling.date, Spelling.mk.injEq, Bool.false_eq_true,
    if_false] at *
  refine ⟨Int.toNat_natCast year, trivial, trivial, trivial, ?_, ?_, ?_, trivial⟩ <;> omega

theorem isPlain_spelling (h : t.nanos = 0) : t.spelling.IsPlain where
  separator := rfl
  fraction := rfl
  second_lt := by
    show t.secondOfDay % 60 + (if t.isLeap then 1 else 0) < 60
    rw [isLeap_of_nanos h]
    exact Nat.mod_lt _ (by decide)

theorem hasFourDigits_of_parse {s : String} (h : parse s = .ok t) : t.HasFourDigits := by
  obtain ⟨w, hw, -, hseconds, -⟩ := parse_eq_ok_iff.1 h
  rw [hasFourDigits_iff, hseconds]
  exact hw.seconds_bounds

theorem nanos_of_parse {s : String} (h : parse s = .ok t) : t.nanos = 0 := by
  obtain ⟨w, -, -, -, hnanos⟩ := parse_eq_ok_iff.1 h
  exact hnanos

end

theorem ofSeconds_eq_ok_iff {e : Int} {t : Instant} :
    ofSeconds e = .ok t ↔ t.seconds = e ∧ t.nanos = 0 := by
  constructor
  · intro h
    rw [ofSeconds] at h
    split at h
    · next u hu =>
      obtain rfl := Except.ok.inj h
      exact ofParts?_eq_some hu
    · exact absurd h (by simp)
  · rintro ⟨rfl, hnanos⟩
    have hparts := ofParts?_self t
    rw [hnanos] at hparts
    rw [ofSeconds, hparts]

/-- Seconds of the years 0 to 9999 are shown in the plain form and read back. What is read, in
whatever allowed spelling, is read back from the way in which it is shown, and a plain spelling is
the way in which it is shown. -/
theorem fixedForm_restored :
    (∀ e : Int, -62167219200 ≤ e → e ≤ 253402300799 →
      ∃ t, ofSeconds e = .ok t ∧ t.seconds = e ∧
        (∃ w : Spelling, w.IsAllowed ∧ w.IsPlain ∧ t.iso = String.ofList w.chars) ∧
        parse t.iso = .ok t) ∧
    (∀ s : String, (∃ t, parse s = .ok t) ↔ ∃ w : Spelling, w.IsAllowed ∧ s.toList = w.chars) ∧
    ∀ (s : String) (t : Instant), parse s = .ok t →
      parse t.iso = .ok t ∧
      ∀ w : Spelling, w.IsAllowed → s.toList = w.chars → w.IsPlain → t.iso = s := by
  have hback {t : Instant} (hfour : t.HasFourDigits) (hnanos : t.nanos = 0) :
      parse t.iso = .ok t := by
    rw [parse_iso hfour, truncated_eq hnanos]
  refine ⟨?_, ?_, ?_⟩
  · intro e hfirst hlast
    let t : Instant := ⟨e, 0, by omega, by omega, by decide, fun h => absurd h (by decide)⟩
    have hfour : t.HasFourDigits := hasFourDigits_iff.2 ⟨hfirst, hlast⟩
    exact ⟨t, ofSeconds_eq_ok_iff.2 ⟨rfl, rfl⟩, rfl,
      ⟨t.spelling, isAllowed_spelling hfour, isPlain_spelling rfl, iso_eq hfour⟩, hback hfour rfl⟩
  · intro s
    constructor
    · rintro ⟨t, ht⟩
      obtain ⟨w, hw, hchars, -⟩ := parse_eq_ok_iff.1 ht
      exact ⟨w, hw, hchars⟩
    · rintro ⟨w, hw, hchars⟩
      obtain ⟨t, ht, -⟩ := exists_parse hw
      exact ⟨t, by rw [← String.ofList_toList (s := s), hchars, ht]⟩
  · intro s t ht
    have hfour := hasFourDigits_of_parse ht
    have hnanos := nanos_of_parse ht
    refine ⟨hback hfour hnanos, fun w hw hchars hplain => ?_⟩
    obtain ⟨u, hu, hseconds⟩ := exists_parse hw
    rw [← String.ofList_toList (s := s), hchars, hu] at ht
    obtain rfl := Except.ok.inj ht
    rw [iso_eq hfour, spelling_eq hw hplain hseconds hnanos, ← hchars, String.ofList_toList]

/-- The first second of the year 0, and a leap day in its plain spelling. -/
theorem leapDay_restored :
    let first : Int := -62167219200
    let noon : Instant := ⟨951825600, 0, by decide, by decide, by decide, by decide⟩
    let w : Spelling := ⟨2000, 2, 29, 'T', 12, 0, 0, []⟩
    (∃ t, ofSeconds first = .ok t ∧ t.seconds = first ∧
      (∃ w : Spelling, w.IsAllowed ∧ w.IsPlain ∧ t.iso = String.ofList w.chars) ∧
      parse t.iso = .ok t) ∧
    (parse "2000-02-29T12:00:00Z" = .ok noon ∧ parse noon.iso = .ok noon) ∧
    (w.IsAllowed ∧ "2000-02-29T12:00:00Z".toList = w.chars ∧ w.IsPlain ∧
      noon.iso = "2000-02-29T12:00:00Z") := by
  intro first noon w
  have hread : parse "2000-02-29T12:00:00Z" = .ok noon := by rfl
  have hallowed : w.IsAllowed :=
    ⟨by decide, by decide, .inl rfl, by decide, by decide, by decide, by simp [w]⟩
  have hchars : "2000-02-29T12:00:00Z".toList = w.chars := by decide
  have hplain : w.IsPlain := ⟨rfl, rfl, by decide⟩
  obtain ⟨hseconds, -, htexts⟩ := fixedForm_restored
  obtain ⟨hback, hsame⟩ := htexts _ noon hread
  exact ⟨hseconds first (by decide) (by decide), ⟨hread, hback⟩,
    hallowed, hchars, hplain, hsame w hallowed hchars hplain⟩

end Instant

end PolicyBook
