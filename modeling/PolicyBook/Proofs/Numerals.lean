import PolicyBook.Proofs.Lists
import PolicyBook.Text.Scan
/-!
Numerals read back.

What `decimal` and `padded` write, the scanners take off again, and they stop where the digits end.

* **`Text.digits_append`** — the digits at the front of a text;
* **`Text.eq_zero_of_head?_decimal`** — a numeral does not begin with an idle zero;
* **`Text.ofDigits_decimal`**, **`Text.ofDigits_padded`** — the number that written digits denote;
* **`Text.decimal_append_inj`** — a numeral and what follows it can be told apart;
* **`Text.number?_padded`** — padded numbers are read back.
-/
namespace PolicyBook.Text

def digitValue (c : Char) : Nat := c.toNat - '0'.toNat

/-- No digit stands at the front. -/
def Undigited (cs : List Char) : Prop := ∀ c ∈ cs.head?, c.isDigit = false

theorem undigited_cons {c : Char} {cs : List Char} : Undigited (c :: cs) ↔ c.isDigit = false := by
  simp [Undigited]

theorem isDigit_iff {c : Char} : c.isDigit = true ↔ '0' ≤ c ∧ c ≤ '9' := by
  simp only [Char.isDigit, Bool.and_eq_true, decide_eq_true_eq]
  rfl

theorem le_digitValue {c : Char} (h : c.isDigit = true) :
    c.toNat = 48 + digitValue c ∧ digitValue c < 10 := by
  rw [isDigit_iff, Char.le_def, Char.le_def, UInt32.le_iff_toNat_le, UInt32.le_iff_toNat_le] at h
  have hzero : '0'.val.toNat = 48 := rfl
  have hnine : '9'.val.toNat = 57 := rfl
  have hvalue : digitValue c = c.toNat - 48 := rfl
  have hc : c.toNat = c.val.toNat := rfl
  omega

theorem isBlank_of_isDigit {c : Char} (h : c.isDigit = true) : isBlank c = false := by
  obtain ⟨hc, hvalue⟩ := le_digitValue h
  rw [isBlank, ← Bool.not_eq_true]
  simp only [Bool.or_eq_true, Bool.and_eq_true, decide_eq_true_eq, beq_iff_eq]
  omega

theorem digit?_of_isDigit {c : Char} (h : c.isDigit = true) : digit? c = some (digitValue c) :=
  if_pos (isDigit_iff.1 h)

theorem digit?_of_not_isDigit {c : Char} (h : c.isDigit = false) : digit? c = none := by
  refine if_neg fun hc => ?_
  rw [isDigit_iff.2 hc] at h
  exact absurd h (by simp)

/-- The digits at the front of a text, where no other digit follows them or the limit is reached. -/
theorem digits_append {front rest : List Char} (limit : Nat)
    (hfront : ∀ c ∈ front, c.isDigit = true) (hlength : front.length ≤ limit)
    (hrest : Undigited rest ∨ front.length = limit) :
    digits limit (front ++ rest) = (front.map digitValue, rest) := by
  -- the limit goes down with every digit, and what follows is looked at when none is left
  induction front generalizing limit with
  | nil =>
    cases rest with
    | nil => simp [digits]
    | cons c cs =>
      rcases hrest with hc | hlimit
      · rw [undigited_cons] at hc
        simp [digits, digit?_of_not_isDigit hc]
      · obtain rfl : 0 = limit := hlimit
        rfl
  | cons c front ih =>
    obtain ⟨limit, rfl⟩ : ∃ n, limit = n + 1 := by
      rw [List.length_cons] at hlength
      exact ⟨limit - 1, by omega⟩
    have hc : c.isDigit = true := hfront c List.mem_cons_self
    rw [List.length_cons] at hlength hrest
    have hrec := ih limit (fun d hd => hfront d (List.mem_cons_of_mem _ hd)) (by omega)
      (hrest.imp id fun h => by omega)
    simp [digits, digit?_of_isDigit hc, hrec]

theorem ofDigits_map_digitValue (cs : List Char) :
    ofDigits (cs.map digitValue) = Nat.ofDigitChars 10 cs 0 := by
  rw [Nat.ofDigitChars_eq_foldl, ofDigits, List.foldl_map]
  rfl

/-! ### Decimal numerals -/

theorem isDigit_of_mem_decimal {n : Nat} {c : Char} (h : c ∈ decimal n) : c.isDigit = true :=
  Nat.isDigit_of_mem_toDigits (by decide) (by decide) h

theorem decimal_ne_nil (n : Nat) : decimal n ≠ [] := Nat.toDigits_ne_nil

theorem decimal_eq_cons (n : Nat) : ∃ c cs, decimal n = c :: cs ∧ c.isDigit = true := by
  obtain ⟨c, cs, hcs⟩ := List.exists_cons_of_ne_nil (decimal_ne_nil n)
  exact ⟨c, cs, hcs, isDigit_of_mem_decimal (hcs ▸ List.mem_cons_self)⟩

theorem digitValue_digitChar : ∀ n < 10, digitValue n.digitChar = n := by decide

theorem eq_zero_of_head?_decimal {n : Nat} (h : ((decimal n).map digitValue).head? = some 0) :
    n = 0 := by
  induction n using Nat.strongRecOn with
  | ind n ih =>
    rw [decimal, Nat.toDigits_eq_if (by decide)] at h
    split at h
    · next hlt =>
      rw [← digitValue_digitChar n hlt]
      exact Option.some_inj.1 h
    · next hge =>
      -- the first digit is that of the number without its last one
      obtain ⟨c, cs, hcs, -⟩ := decimal_eq_cons (n / 10)
      rw [← decimal, hcs] at h
      have := ih (n / 10) (by omega) (by rw [hcs]; exact h)
      omega

theorem ofDigits_decimal (n : Nat) : ofDigits ((decimal n).map digitValue) = n := by
  rw [ofDigits_map_digitValue]
  exact Nat.ofDigitChars_ten_toDigits

/-- A numeral and what follows it can be told apart, as long as no digit follows. -/
theorem decimal_append_inj {m n : Nat} {r s : List Char} (hr : Undigited r) (hs : Undigited s)
    (h : decimal m ++ r = decimal n ++ s) : m = n ∧ r = s := by
  -- scan both sides with a limit that neither numeral reaches
  let limit := (decimal m).length + (decimal n).length
  have hm : digits limit (decimal m ++ r) = _ :=
    digits_append limit (fun _ => isDigit_of_mem_decimal) (Nat.le_add_right _ _) (.inl hr)
  have hn : digits limit (decimal n ++ s) = _ :=
    digits_append limit (fun _ => isDigit_of_mem_decimal) (Nat.le_add_left _ _) (.inl hs)
  rw [h, hn] at hm
  obtain ⟨hdigits, hrest⟩ := Prod.mk.inj hm
  refine ⟨?_, hrest.symm⟩
  rw [← ofDigits_decimal m, ← hdigits, ofDigits_decimal]

/-! ### Padded numerals -/

theorem isDigit_of_mem_padded {width n : Nat} {c : Char} (h : c ∈ padded width n) :
    c.isDigit = true := by
  rcases List.mem_append.1 h with hzero | hdigit
  · rw [List.eq_of_mem_replicate hzero]
    rfl
  · exact isDigit_of_mem_decimal hdigit

theorem padded_ne_nil (width n : Nat) : padded width n ≠ [] := by
  intro h
  exact decimal_ne_nil n (List.append_eq_nil_iff.1 h).2

theorem ofDigits_padded (width n : Nat) : ofDigits ((padded width n).map digitValue) = n := by
  rw [ofDigits_map_digitValue, padded, zeroPadded, Nat.ofDigitChars_append,
    Nat.ofDigitChars_replicate_zero, Nat.mul_zero]
  exact Nat.ofDigitChars_ten_toDigits

theorem length_padded {width n : Nat} (hwidth : 0 < width) (h : n < tenTo width) :
    (padded width n).length = width := by
  have := (Nat.length_toDigits_le_iff (by decide) hwidth).2 h
  rw [padded, zeroPadded, List.length_append, List.length_replicate, decimal]
  omega

theorem digits_padded {width n limit : Nat} {rest : List Char} (hwidth : 0 < width)
    (hlimit : width ≤ limit) (h : n < tenTo width) (hrest : Undigited rest ∨ width = limit) :
    digits limit (padded width n ++ rest) = ((padded width n).map digitValue, rest) := by
  refine digits_append limit (fun _ => isDigit_of_mem_padded) ?_ ?_
  all_goals rw [length_padded hwidth h]
  · exact hlimit
  · exact hrest

theorem number?_of_digits {limit : Nat} {cs rest : List Char} {ds : List Nat}
    (h : digits limit cs = (ds, rest)) (hne : ds ≠ []) :
    number? limit cs = some (ofDigits ds, rest) := by
  rw [number?, h]
  cases ds with
  | nil => exact absurd rfl hne
  | cons d ds => rfl

theorem map_digitValue_padded_ne_nil (width n : Nat) : (padded width n).map digitValue ≠ [] := by
  intro h
  exact padded_ne_nil width n (List.map_eq_nil_iff.1 h)

theorem number?_padded {width n limit : Nat} {rest : List Char} (hwidth : 0 < width)
    (hlimit : width ≤ limit) (h : n < tenTo width) (hrest : Undigited rest ∨ width = limit) :
    number? limit (padded width n ++ rest) = some (n, rest) := by
  rw [number?_of_digits (digits_padded hwidth hlimit h hrest)
    (map_digitValue_padded_ne_nil width n), ofDigits_padded]

end PolicyBook.Text
