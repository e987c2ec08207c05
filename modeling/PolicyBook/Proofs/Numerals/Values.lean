import PolicyBook.Proofs.Numerals.Order
/-!
Numerals and their values.

A numeral is a row of one or more digits, and it denotes the number that is its value to the base of
ten. Zeros in front do not count, so a number has many numerals, of which `decimal` is the one
without superfluous zeros and `padded` those of a given width.

* **`Text.denotes_iff_zeros`** — the numerals of a number differ in the zeros in front only;
* **`Text.Denotes.eq_decimal`** — without idle zeros in front there is one numeral of a number;
* **`Text.natural?_eq_some_iff`** — digits are read as the number that they denote;
* **`Text.word?_eq_some_iff`** — so are digits behind a plus sign, up to sixty-four bits;
* **`Text.eq_padded_of_fixedNumber?`** — a number of a fixed width was padded to that width.
-/
namespace PolicyBook.Text

/-- One or more digits that have a number as their value. -/
structure Denotes (cs : List Char) (n : Nat) : Prop where
  ne_nil : cs ≠ []
  digits : ∀ c ∈ cs, c.isDigit = true
  value : Nat.ofDigitChars 10 cs 0 = n

variable {cs : List Char} {m n width : Nat}

theorem Denotes.unique (hm : Denotes cs m) (hn : Denotes cs n) : m = n := by
  rw [← hm.value, hn.value]

theorem Denotes.ofDigits_eq (h : Denotes cs n) : ofDigits (cs.map digitValue) = n := by
  rw [ofDigits_map_digitValue, h.value]

theorem denotes_decimal (n : Nat) : Denotes (decimal n) n where
  ne_nil := decimal_ne_nil n
  digits _ := isDigit_of_mem_decimal
  value := by rw [← ofDigits_map_digitValue, ofDigits_decimal]

theorem denotes_padded (width n : Nat) : Denotes (padded width n) n where
  ne_nil := padded_ne_nil width n
  digits _ := isDigit_of_mem_padded
  value := by rw [← ofDigits_map_digitValue, ofDigits_padded]

theorem Denotes.length_pos (h : Denotes cs n) : 0 < cs.length :=
  List.length_pos_iff.2 h.ne_nil

theorem Denotes.lt_tenTo (h : Denotes cs n) : n < tenTo cs.length := by
  rw [← h.ofDigits_eq]
  exact ofDigits_lt h.digits

theorem Denotes.eq_padded (h : Denotes cs n) : cs = padded cs.length n := by
  refine eq_of_ofDigits_eq h.digits (fun _ => isDigit_of_mem_padded) ?_ ?_
  · rw [length_padded h.length_pos h.lt_tenTo]
  · rw [h.ofDigits_eq, ofDigits_padded]

/-- The numerals of a number differ in the zeros in front only. -/
theorem denotes_iff_zeros : Denotes cs n ↔ ∃ k, cs = List.replicate k '0' ++ decimal n := by
  constructor
  · intro h
    exact ⟨_, h.eq_padded⟩
  · rintro ⟨k, rfl⟩
    have hpadded : List.replicate k '0' ++ decimal n = padded (k + (decimal n).length) n := by
      rw [padded, zeroPadded, Nat.add_sub_cancel]
    rw [hpadded]
    exact denotes_padded _ n

/-- A zero in front is the only digit. -/
def HasNoIdleZero (cs : List Char) : Prop := cs.head? = some '0' → cs = ['0']

theorem hasNoIdleZero_decimal (n : Nat) : HasNoIdleZero (decimal n) := by
  intro h
  have hzero : n = 0 := by
    refine eq_zero_of_head?_decimal ?_
    rw [List.head?_map, h]
    rfl
  rw [hzero]
  rfl

/-- Without an idle zero in front a numeral is the decimal text of its number. -/
theorem Denotes.eq_decimal (h : Denotes cs n) (hidle : HasNoIdleZero cs) : cs = decimal n := by
  obtain ⟨k, rfl⟩ := denotes_iff_zeros.1 h
  cases k with
  | zero => rfl
  | succ k =>
    have hrest := (List.cons.inj (hidle rfl)).2
    exact absurd (List.append_eq_nil_iff.1 hrest).2 (decimal_ne_nil n)

/-! ### Reading -/

theorem digit?_eq_some_iff {c : Char} {d : Nat} :
    digit? c = some d ↔ c.isDigit = true ∧ digitValue c = d := by
  cases hc : c.isDigit with
  | true => simp [digit?_of_isDigit hc]
  | false => simp [digit?_of_not_isDigit hc]

theorem mapM_digit?_eq_some_iff {ds : List Nat} :
    cs.mapM digit? = some ds ↔ (∀ c ∈ cs, c.isDigit = true) ∧ cs.map digitValue = ds := by
  simp only [mapM_eq_some_iff, digit?_eq_some_iff, List.forall₂_and_left]
  rw [← List.forall₂_eq_eq_eq, List.forall₂_map_left_iff]

theorem natural?_eq_some_iff : natural? cs = some n ↔ Denotes cs n := by
  rw [natural?, Option.ite_none_left_eq_some, Option.map_eq_some_iff]
  constructor
  · rintro ⟨hne, ds, hds, hvalue⟩
    obtain ⟨hdigits, rfl⟩ := mapM_digit?_eq_some_iff.1 hds
    rw [ofDigits_map_digitValue] at hvalue
    exact ⟨by simpa using hne, hdigits, hvalue⟩
  · intro h
    exact ⟨by simpa using h.ne_nil, _, mapM_digit?_eq_some_iff.2 ⟨h.digits, rfl⟩, h.ofDigits_eq⟩

/-- A numeral, with a plus sign in front or without, whose number has at most sixty-four bits. -/
def IsWord (cs : List Char) (n : Nat) : Prop :=
  ∃ digits, (cs = digits ∨ cs = '+' :: digits) ∧ Denotes digits n ∧ n < twoTo 64

theorem isWord_decimal (h : n < twoTo 64) : IsWord (decimal n) n :=
  ⟨_, .inl rfl, denotes_decimal n, h⟩

theorem isWord_iff_zeros :
    IsWord cs n ↔ n < twoTo 64 ∧ ∃ k,
      cs = List.replicate k '0' ++ decimal n ∨ cs = '+' :: (List.replicate k '0' ++ decimal n) := by
  constructor
  · rintro ⟨digits, hcs, hdigits, hn⟩
    obtain ⟨k, rfl⟩ := denotes_iff_zeros.1 hdigits
    exact ⟨hn, k, hcs⟩
  · rintro ⟨hn, k, hcs⟩
    exact ⟨_, hcs, denotes_iff_zeros.2 ⟨k, rfl⟩, hn⟩

theorem IsWord.not_blank (h : IsWord cs n) : ∀ c ∈ cs, isBlank c = false := by
  obtain ⟨digits, hcs, hdigits, -⟩ := h
  have hnone : ∀ c ∈ digits, isBlank c = false :=
    fun c hc => isBlank_of_isDigit (hdigits.digits c hc)
  rcases hcs with rfl | rfl
  · exact hnone
  · exact List.forall_mem_cons.2 ⟨rfl, hnone⟩

theorem word?_eq_some_iff : word? cs = some n ↔ IsWord cs n := by
  have hbits : n ≤ maxWord ↔ n < twoTo 64 := by
    have hword : maxWord + 1 = twoTo 64 := rfl
    omega
  rw [word?, Option.filter_eq_some_iff, natural?_eq_some_iff, decide_eq_true_eq, hbits]
  constructor
  · rintro ⟨hdigits, hn⟩
    split at hdigits
    · next hplus =>
      obtain ⟨rest, rfl⟩ := List.head?_eq_some_iff.1 hplus
      exact ⟨rest, .inr rfl, hdigits, hn⟩
    · exact ⟨cs, .inl rfl, hdigits, hn⟩
  · rintro ⟨digits, rfl | rfl, hdigits, hn⟩
    · rw [if_neg]
      · exact ⟨hdigits, hn⟩
      · intro hplus
        exact absurd (hdigits.digits '+' (List.mem_of_mem_head? hplus)) (by decide)
    · rw [List.head?_cons, if_pos rfl]
      exact ⟨hdigits, hn⟩

/-! ### Numbers of a fixed width -/

theorem fixedNumber?_padded (hwidth : 0 < width) (h : n < tenTo width) (rest : List Char) :
    fixedNumber? width (padded width n ++ rest) = some (n, rest) := by
  have hlength := length_padded hwidth h
  rw [fixedNumber?, List.take_left' hlength, List.drop_left' hlength,
    natural?_eq_some_iff.2 (denotes_padded width n), (Option.guard_eq_some' ()).2 hlength]
  rfl

theorem eq_padded_of_fixedNumber? {rest : List Char}
    (h : fixedNumber? width cs = some (n, rest)) :
    n < tenTo width ∧ cs = padded width n ++ rest := by
  obtain ⟨_, hguard, h⟩ := Option.bind_eq_some_iff.1 h
  obtain ⟨n', hnatural, h⟩ := Option.bind_eq_some_iff.1 h
  obtain ⟨rfl, rfl⟩ := Prod.mk.inj (Option.some_inj.1 h)
  have hlength : (cs.take width).length = width := (Option.guard_eq_some' _).1 hguard
  have hfront := natural?_eq_some_iff.1 hnatural
  have hsmall := hfront.lt_tenTo
  have hpadded := hfront.eq_padded
  rw [hlength] at hsmall hpadded
  refine ⟨hsmall, ?_⟩
  rw [← hpadded, List.take_append_drop]

end PolicyBook.Text
