import PolicyBook.Proofs.Instants.Spelling
import PolicyBook.Proofs.Numerals.Values
/-!
Reading time stamps in the fixed form.

`Instant.parse` takes exactly the allowed spellings and finds the whole second in which the spelled
moment lies. In one direction the readers take off the parts of a spelling one after another; in the
other direction each of them tells what it has taken off.

* **`Instant.ofFixedForm?_chars`** — an allowed spelling is read;
* **`Instant.exists_spelling`** — whatever is read was spelled in an allowed way;
* **`Instant.parse_eq_ok_iff`** — what is read, and as which instant.
-/
namespace PolicyBook.Instant

open Text

/-! ### Reading the parts -/

theorem eq_cons_of_char? {c : Char} {cs rest : List Char} (h : char? c cs = some rest) :
    cs = c :: rest := by
  cases cs with
  | nil => exact absurd h (by simp [char?])
  | cons d cs =>
    rw [char?] at h
    split at h
    · next heq => rw [heq, Option.some_inj.1 h]
    · exact absurd h (by simp)

theorem eq_cons_of_separator? {cs rest : List Char} (h : separator? cs = some rest) :
    ∃ c, (c = 'T' ∨ c = 't' ∨ c = ' ') ∧ cs = c :: rest := by
  cases cs with
  | nil => exact absurd h (by simp [separator?])
  | cons c cs =>
    rw [separator?] at h
    split at h
    · next hc => exact ⟨c, hc, by rw [Option.some_inj.1 h]⟩
    · exact absurd h (by simp)

theorem isDigit_of_digit? {c : Char} {d : Nat} (h : digit? c = some d) :
    c.isDigit = true ∧ d = digitValue c := by
  cases hc : c.isDigit with
  | true =>
    rw [digit?_of_isDigit hc] at h
    exact ⟨rfl, (Option.some_inj.1 h).symm⟩
  | false =>
    rw [digit?_of_not_isDigit hc] at h
    exact absurd h (by simp)

theorem eq_append_of_digits {limit : Nat} {cs rest : List Char} {ds : List Nat}
    (h : digits limit cs = (ds, rest)) :
    ∃ front, cs = front ++ rest ∧ ds = front.map digitValue ∧ ∀ c ∈ front, c.isDigit = true := by
  induction cs generalizing limit ds rest with
  | nil =>
    rw [digits] at h
    obtain ⟨rfl, rfl⟩ := Prod.mk.inj h
    exact ⟨[], rfl, rfl, by simp⟩
  | cons c cs ih =>
    unfold digits at h
    split at h
    · next limit d hd =>
      obtain ⟨rfl, rfl⟩ := Prod.mk.inj h
      obtain ⟨front, hcs, hds, hfront⟩ := ih (show digits limit cs = _ from rfl)
      obtain ⟨hc, rfl⟩ := isDigit_of_digit? hd
      exact ⟨c :: front, congrArg (c :: ·) hcs, congrArg (_ :: ·) hds,
        List.forall_mem_cons.2 ⟨hc, hfront⟩⟩
    · obtain ⟨rfl, rfl⟩ := Prod.mk.inj h
      exact ⟨[], rfl, rfl, by simp⟩

theorem optionalFraction?_fractionSpelling {fraction : List Char}
    (h : ∀ c ∈ fraction, c.isDigit = true) :
    ∃ nanos < nanosPerSecond, optionalFraction? (fractionSpelling fraction ++ ['Z']) =
      some (nanos, ['Z']) := by
  have hz : Undigited ['Z'] := undigited_cons.2 rfl
  cases fraction with
  | nil => exact ⟨0, by decide, rfl⟩
  | cons c cs =>
    -- nine digits count, and what is left of them is dropped
    let front := (c :: cs).take 9
    let rest := (c :: cs).drop 9
    have hfront : ∀ d ∈ front, d.isDigit = true := fun d hd => h d (List.mem_of_mem_take hd)
    have hrest : ∀ d ∈ rest, d.isDigit = true := fun d hd => h d (List.mem_of_mem_drop hd)
    have hlength : front.length ≤ 9 := List.length_take_le 9 _
    have hdigits : digits 9 (front ++ (rest ++ ['Z'])) =
        (front.map digitValue, rest ++ ['Z']) := by
      refine digits_append 9 hfront hlength ?_
      by_cases hlong : 9 ≤ (c :: cs).length
      · exact .inr (List.length_take_of_le hlong)
      · refine .inl ?_
        show Undigited ((c :: cs).drop 9 ++ ['Z'])
        rw [List.drop_eq_nil_of_le (by omega)]
        exact hz
    have hdrop : dropDigits (rest ++ ['Z']) = ['Z'] := by
      rw [dropDigits, List.dropWhile_append_of_pos hrest]
      rfl
    refine ⟨ofDigits (front.map digitValue) * tenTo (9 - front.length), ?_, ?_⟩
    · have hlt := Nat.mul_lt_mul_of_pos_right (ofDigits_lt hfront)
        (show 0 < tenTo (9 - front.length) from Nat.pow_pos (by decide))
      have hpow : tenTo front.length * tenTo (9 - front.length) = nanosPerSecond := by
        show 10 ^ front.length * 10 ^ (9 - front.length) = 10 ^ 9
        rw [← Nat.pow_add, Nat.add_sub_cancel' hlength]
      rwa [hpow] at hlt
    · have happend : fractionSpelling (c :: cs) ++ ['Z'] = '.' :: (front ++ (rest ++ ['Z'])) := by
        rw [← List.append_assoc, List.take_append_drop]
        rfl
      rw [happend]
      show fraction? (front ++ (rest ++ ['Z'])) = _
      rw [fraction?_of_digits hdigits (by simp [front]), hdrop, List.length_map]

/-- What is read as a fraction at the end is a point with digits behind it, or nothing. -/
theorem eq_fractionSpelling {cs : List Char} {nanos : Nat}
    (h : optionalFraction? cs = some (nanos, ['Z'])) :
    ∃ fraction, cs = fractionSpelling fraction ++ ['Z'] ∧ ∀ c ∈ fraction, c.isDigit = true := by
  rw [optionalFraction?] at h
  split at h
  · next rest hrest =>
    obtain rfl := eq_cons_of_char? hrest
    rw [fraction?] at h
    split at h
    · exact absurd h (by simp)
    · next ds behind hne hdigits =>
      obtain ⟨front, hcs, rfl, hfront⟩ := eq_append_of_digits hdigits
      obtain ⟨-, hdrop⟩ := Prod.mk.inj (Option.some_inj.1 h)
      -- the digits that were dropped belong to the fraction as well
      let dropped := behind.takeWhile Char.isDigit
      have hbehind : dropped ++ ['Z'] = behind := by
        rw [← hdrop]
        exact List.takeWhile_append_dropWhile
      have hdropped : ∀ c ∈ dropped, c.isDigit = true :=
        List.all_eq_true.1 List.all_takeWhile
      have hfraction : front ++ dropped ≠ [] := by
        intro hnil
        have hempty := (List.append_eq_nil_iff.1 hnil).1
        exact hne (by rw [hempty]; rfl)
      refine ⟨front ++ dropped, ?_, List.forall_mem_append.2 ⟨hfront, hdropped⟩⟩
      rw [fractionSpelling, if_neg hfraction, hcs, ← hbehind]
      simp
  · obtain ⟨-, rfl⟩ := Prod.mk.inj (Option.some_inj.1 h)
    exact ⟨[], rfl, by simp⟩

/-! ### Reading -/

theorem ofFixedForm?_chars {w : Spelling} (h : w.IsAllowed) :
    ∃ t, ofFixedForm? w.chars = some t ∧ t.seconds = w.seconds := by
  obtain ⟨nanos, hnanos, hfraction⟩ := optionalFraction?_fractionSpelling h.fraction
  obtain ⟨t, ht, hseconds⟩ := h.exists_instant? hnanos
  refine ⟨t, ?_, hseconds⟩
  have hyear := h.year_le
  have hmonth := h.month_le
  have hday := h.day_le
  have hhour := h.hour_le
  have hminute := h.minute_le
  have hsecond := h.second_le
  have hmark (c : Char) (cs : List Char) : char? c (c :: cs) = some cs := if_pos rfl
  have hseparator (cs : List Char) : separator? (w.separator :: cs) = some cs :=
    if_pos h.separator
  have htwo {n : Nat} (hn : n < 100) (rest : List Char) :
      fixedNumber? 2 (padded 2 n ++ rest) = some (n, rest) :=
    fixedNumber?_padded (by decide) hn rest
  rw [ofFixedForm?, Spelling.chars]
  refine (bind_of_eq (fixedNumber?_padded (by decide) (show w.year < 10000 by omega) _) _).trans ?_
  refine (bind_of_eq (hmark '-' _) _).trans ?_
  refine (bind_of_eq (htwo (by omega) _) _).trans ?_
  refine (bind_of_eq (hmark '-' _) _).trans ?_
  refine (bind_of_eq (htwo (by omega) _) _).trans ?_
  refine (bind_of_eq (hseparator _) _).trans ?_
  refine (bind_of_eq (htwo (by omega) _) _).trans ?_
  refine (bind_of_eq (hmark ':' _) _).trans ?_
  refine (bind_of_eq (htwo (by omega) _) _).trans ?_
  refine (bind_of_eq (hmark ':' _) _).trans ?_
  refine (bind_of_eq (htwo (by omega) _) _).trans ?_
  refine (bind_of_eq hfraction _).trans ?_
  exact ht

theorem exists_spelling {cs : List Char} {t : Instant} (h : ofFixedForm? cs = some t) :
    ∃ w : Spelling, w.IsAllowed ∧ cs = w.chars ∧ t.seconds = w.seconds := by
  obtain ⟨⟨year, _⟩, hyear, h⟩ := Option.bind_eq_some_iff.1 h
  obtain ⟨_, hmark₁, h⟩ := Option.bind_eq_some_iff.1 h
  obtain ⟨⟨month, _⟩, hmonth, h⟩ := Option.bind_eq_some_iff.1 h
  obtain ⟨_, hmark₂, h⟩ := Option.bind_eq_some_iff.1 h
  obtain ⟨⟨day, _⟩, hday, h⟩ := Option.bind_eq_some_iff.1 h
  obtain ⟨_, hseparator, h⟩ := Option.bind_eq_some_iff.1 h
  obtain ⟨⟨hour, _⟩, hhour, h⟩ := Option.bind_eq_some_iff.1 h
  obtain ⟨_, hmark₃, h⟩ := Option.bind_eq_some_iff.1 h
  obtain ⟨⟨minute, _⟩, hminute, h⟩ := Option.bind_eq_some_iff.1 h
  obtain ⟨_, hmark₄, h⟩ := Option.bind_eq_some_iff.1 h
  obtain ⟨⟨second, _⟩, hsecond, h⟩ := Option.bind_eq_some_iff.1 h
  obtain ⟨⟨nanos, rest⟩, hfraction, h⟩ := Option.bind_eq_some_iff.1 h
  obtain ⟨_, hguard, h⟩ := Option.bind_eq_some_iff.1 h
  obtain rfl : rest = ['Z'] := (Option.guard_eq_some' _).1 hguard
  obtain ⟨separator, hallowed, hcs⟩ := eq_cons_of_separator? hseparator
  obtain ⟨fraction, hspelled, hdigits⟩ := eq_fractionSpelling hfraction
  let w : Spelling := ⟨year, month, day, separator, hour, minute, second, fraction⟩
  have hfour := eq_padded_of_fixedNumber? hyear
  have hyear_le : w.year ≤ 9999 := Nat.le_of_lt_succ hfour.1
  obtain ⟨hdate, hhour_le, hminute_le, hsecond_le, hseconds⟩ :=
    Spelling.shown_of_instant? hyear_le (show (w.reading nanos).instant? = some t from h)
  have htwo {n : Nat} {cs rest : List Char} (hn : fixedNumber? 2 cs = some (n, rest)) :
      cs = padded 2 n ++ rest := (eq_padded_of_fixedNumber? hn).2
  refine ⟨w, ⟨hyear_le, hdate, hallowed, hhour_le, hminute_le, hsecond_le, hdigits⟩, ?_, hseconds⟩
  rw [hfour.2, eq_cons_of_char? hmark₁, htwo hmonth, eq_cons_of_char? hmark₂, htwo hday, hcs,
    htwo hhour, eq_cons_of_char? hmark₃, htwo hminute, eq_cons_of_char? hmark₄, htwo hsecond,
    hspelled]
  rfl

theorem Spelling.getLast?_chars (w : Spelling) : w.chars.getLast? = some 'Z' := by
  simp [chars, List.getLast?_cons]

theorem parse_eq_ok_iff {s : String} {t : Instant} :
    parse s = .ok t ↔
      ∃ w : Spelling, w.IsAllowed ∧ s.toList = w.chars ∧ t.seconds = w.seconds ∧ t.nanos = 0 := by
  constructor
  · intro h
    rw [parse] at h
    split at h
    · exact absurd h (by simp)
    · split at h
      · next u hu =>
        obtain rfl := Except.ok.inj h
        obtain ⟨w, hw, hchars, hseconds⟩ := exists_spelling hu
        exact ⟨w, hw, hchars, hseconds, rfl⟩
      · exact absurd h (by simp)
  · rintro ⟨w, hw, hchars, hseconds, hnanos⟩
    obtain ⟨u, hu, hsame⟩ := ofFixedForm?_chars hw
    have htruncated : u.truncated = t := ext (hsame.trans hseconds.symm) hnanos.symm
    rw [parse, hchars, if_neg (by simp [w.getLast?_chars]), hu]
    simp only [htruncated]

/-- Digits after the ninth do not count, nor does a leap second. -/
example : parse "2016-12-31 23:59:60.0123456789Z" =
    .ok ⟨1483228799, 0, by decide, by decide, by decide, by decide⟩ := by rfl

theorem exists_parse {w : Spelling} (h : w.IsAllowed) :
    ∃ t, parse (String.ofList w.chars) = .ok t ∧ t.seconds = w.seconds := by
  obtain ⟨t, -, hseconds⟩ := ofFixedForm?_chars h
  exact ⟨t.truncated, parse_eq_ok_iff.2 ⟨w, h, String.toList_ofList, hseconds, rfl⟩, hseconds⟩

end PolicyBook.Instant
