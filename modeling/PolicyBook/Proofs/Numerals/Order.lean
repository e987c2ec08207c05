import Mathlib.Data.Option.Basic
import Mathlib.Tactic.Tauto
import PolicyBook.Proofs.Numerals
/-!
Numerals of one length in their order.

Numerals that have as many digits are in the order of their numbers, character by character as well
as in value. Texts that begin with such numerals are therefore ordered by the numbers first.

* **`Text.lt_iff_ofDigits_lt`** — the order of rows of digits is that of the numbers they denote;
* **`Text.padded_append_lt_iff`** — the order of texts that begin with padded numbers.
-/
namespace PolicyBook.Text

theorem lt_iff_digitValue_lt {c d : Char} (hc : c.isDigit = true) (hd : d.isDigit = true) :
    c < d ↔ digitValue c < digitValue d := by
  have hc := (le_digitValue hc).1
  have hd := (le_digitValue hd).1
  rw [show c < d ↔ c.toNat < d.toNat from Iff.rfl]
  omega

theorem eq_of_digitValue_eq {c d : Char} (hc : c.isDigit = true) (hd : d.isDigit = true)
    (h : digitValue c = digitValue d) : c = d := by
  have hc := (le_digitValue hc).1
  have hd := (le_digitValue hd).1
  exact Char.toNat_inj.1 (by omega)

theorem ofDigits_cons (c : Char) (cs : List Char) :
    ofDigits ((c :: cs).map digitValue) =
      tenTo cs.length * digitValue c + ofDigits (cs.map digitValue) := by
  rw [ofDigits_map_digitValue, ofDigits_map_digitValue, Nat.ofDigitChars_cons,
    Nat.ofDigitChars_eq_ofDigitChars_zero, Nat.mul_zero, Nat.zero_add]
  rfl

theorem tenTo_succ (n : Nat) : tenTo (n + 1) = 10 * tenTo n := by
  show 10 ^ (n + 1) = 10 * 10 ^ n
  rw [Nat.pow_succ, Nat.mul_comm]

theorem ofDigits_lt {cs : List Char} (h : ∀ c ∈ cs, c.isDigit = true) :
    ofDigits (cs.map digitValue) < tenTo cs.length := by
  induction cs with
  | nil => decide
  | cons c cs ih =>
    have hrest := ih fun d hd => h d (List.mem_cons_of_mem _ hd)
    obtain ⟨-, hfirst⟩ := le_digitValue (h c List.mem_cons_self)
    have hmul : tenTo cs.length * digitValue c ≤ tenTo cs.length * 9 :=
      Nat.mul_le_mul_left _ (by omega)
    rw [ofDigits_cons, List.length_cons, tenTo_succ]
    omega

theorem lt_iff_ofDigits_lt {cs ds : List Char} (hcs : ∀ c ∈ cs, c.isDigit = true)
    (hds : ∀ d ∈ ds, d.isDigit = true) (hlength : cs.length = ds.length) :
    cs < ds ↔ ofDigits (cs.map digitValue) < ofDigits (ds.map digitValue) := by
  induction cs generalizing ds with
  | nil =>
    obtain rfl := List.length_eq_zero_iff.1 hlength.symm
    simp
  | cons c cs ih =>
    cases ds with
    | nil => exact absurd hlength (by simp)
    | cons d ds =>
      have hlength : cs.length = ds.length := Nat.succ.inj hlength
      have hc := hcs c List.mem_cons_self
      have hd := hds d List.mem_cons_self
      have hrest := fun a ha => hcs a (List.mem_cons_of_mem _ ha)
      have hrest' := fun a ha => hds a (List.mem_cons_of_mem _ ha)
      have hsmall := ofDigits_lt hrest
      have hsmall' := ofDigits_lt hrest'
      rw [hlength] at hsmall
      rw [List.cons_lt_cons_iff, lt_iff_digitValue_lt hc hd, ih hrest hrest' hlength,
        ofDigits_cons, ofDigits_cons, hlength]
      -- the first digits decide unless they are equal
      rcases Nat.lt_trichotomy (digitValue c) (digitValue d) with hlt | heq | hgt
      · have hmul : tenTo ds.length * (digitValue c + 1) ≤ tenTo ds.length * digitValue d :=
          Nat.mul_le_mul_left _ hlt
        rw [Nat.mul_add, Nat.mul_one] at hmul
        exact ⟨fun _ => by omega, fun _ => .inl hlt⟩
      · rw [eq_of_digitValue_eq hc hd heq]
        simp
      · have hmul : tenTo ds.length * (digitValue d + 1) ≤ tenTo ds.length * digitValue c :=
          Nat.mul_le_mul_left _ hgt
        rw [Nat.mul_add, Nat.mul_one] at hmul
        refine ⟨?_, fun h => by omega⟩
        rintro (hlt | ⟨rfl, -⟩) <;> omega

theorem eq_of_ofDigits_eq {cs ds : List Char} (hcs : ∀ c ∈ cs, c.isDigit = true)
    (hds : ∀ d ∈ ds, d.isDigit = true) (hlength : cs.length = ds.length)
    (h : ofDigits (cs.map digitValue) = ofDigits (ds.map digitValue)) : cs = ds := by
  have hle : ¬ds < cs := by
    rw [lt_iff_ofDigits_lt hds hcs hlength.symm]
    omega
  have hge : ¬cs < ds := by
    rw [lt_iff_ofDigits_lt hcs hds hlength]
    omega
  exact List.le_antisymm hle hge

/-! ### Padded numbers -/

theorem padded_lt_iff {width m n : Nat} (hwidth : 0 < width) (hm : m < tenTo width)
    (hn : n < tenTo width) : padded width m < padded width n ↔ m < n := by
  rw [lt_iff_ofDigits_lt (fun _ => isDigit_of_mem_padded) (fun _ => isDigit_of_mem_padded)
    (by rw [length_padded hwidth hm, length_padded hwidth hn]), ofDigits_padded, ofDigits_padded]

theorem append_lt_iff {cs ds : List Char} (hlength : cs.length = ds.length) (r s : List Char) :
    cs ++ r < ds ++ s ↔ cs < ds ∨ cs = ds ∧ r < s := by
  induction cs generalizing ds with
  | nil =>
    obtain rfl := List.length_eq_zero_iff.1 hlength.symm
    simp
  | cons c cs ih =>
    cases ds with
    | nil => exact absurd hlength (by simp)
    | cons d ds =>
      rw [List.cons_append, List.cons_append, List.cons_lt_cons_iff, List.cons_lt_cons_iff,
        ih (Nat.succ.inj hlength), List.cons.injEq]
      tauto

/-- Texts that begin with padded numbers are ordered by the numbers, and then by what follows. -/
theorem padded_append_lt_iff {width m n : Nat} (hwidth : 0 < width) (hm : m < tenTo width)
    (hn : n < tenTo width) (r s : List Char) :
    padded width m ++ r < padded width n ++ s ↔ m < n ∨ m = n ∧ r < s := by
  have hlength : (padded width m).length = (padded width n).length := by
    rw [length_padded hwidth hm, length_padded hwidth hn]
  have heq : padded width m = padded width n ↔ m = n := by
    refine ⟨fun h => ?_, fun h => by rw [h]⟩
    rw [← ofDigits_padded width m, h, ofDigits_padded]
  rw [append_lt_iff hlength, padded_lt_iff hwidth hm hn, heq]

end PolicyBook.Text
