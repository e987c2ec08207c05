import Mathlib.Tactic.SplitIfs
import PolicyBook.Proofs.Coding
import PolicyBook.Proofs.Json.Canonical
/-!
Texts in the order of their bytes.

The bytes of a character are its number in digits to the base 64, the first of them raised by a mark
that grows with their count. So a character with a smaller number has smaller bytes, whether it has
as many or fewer, and no character begins with the bytes of another. Texts are therefore in the same
order character by character and byte by byte.

* **`Text.encode_append_lt_iff`** — the order of bytes that begin with those of two characters;
* **`Text.bytes_lt_iff`** — the order of the bytes of two texts.
-/
namespace PolicyBook.Text

open String (utf8EncodeChar)

/-! ### Bytes in order -/

theorem toNat_ofNat_of_lt {n : Nat} (h : n < 256) : (UInt8.ofNat n).toNat = n := by
  rw [UInt8.toNat_ofNat']
  exact Nat.mod_eq_of_lt h

theorem cons_ofNat_lt_iff {m n : Nat} (hm : m < 256) (hn : n < 256) (r s : List UInt8) :
    UInt8.ofNat m :: r < UInt8.ofNat n :: s ↔ m < n ∨ m = n ∧ r < s := by
  rw [List.cons_lt_cons_iff, UInt8.lt_iff_toNat_lt, ← UInt8.toNat_inj, toNat_ofNat_of_lt hm,
    toNat_ofNat_of_lt hn]

/-! ### Characters -/

theorem number_lt (c : Char) : c.val.toNat < 1114112 := by
  rcases c.valid with h | h
  · exact Nat.lt_trans h (by decide)
  · exact h.2

theorem lt_iff_digit_lt {m n : Nat} :
    m < n ↔ m / 64 < n / 64 ∨ m / 64 = n / 64 ∧ m % 64 < n % 64 := by
  omega

theorem encode_append_lt {c d : Char} (h : c < d) (r s : List UInt8) :
    utf8EncodeChar c ++ r < utf8EncodeChar d ++ s := by
  have hlt : c.val.toNat < d.val.toNat := h
  have hc := number_lt c
  have hd := number_lt d
  unfold utf8EncodeChar
  generalize c.val.toNat = m at *
  generalize d.val.toNat = n at *
  -- every digit is the last one of a quotient by 64
  have hm : m / 4096 = m / 64 / 64 := by omega
  have hn : n / 4096 = n / 64 / 64 := by omega
  have hmfirst : m / 262144 % 8 = m / 64 / 64 / 64 := by omega
  have hnfirst : n / 262144 % 8 = n / 64 / 64 / 64 := by omega
  have hlast := lt_iff_digit_lt.1 hlt
  have hthird := lt_iff_digit_lt (m := m / 64) (n := n / 64)
  have hsecond := lt_iff_digit_lt (m := m / 64 / 64) (n := n / 64 / 64)
  simp only [hm, hn, hmfirst, hnfirst]
  -- with more digits the first byte decides, with as many the first digit that differs
  split_ifs <;> simp only [List.cons_append, List.nil_append]
  all_goals repeat rw [cons_ofNat_lt_iff (by omega) (by omega)]
  all_goals omega

theorem isOrderedCode_utf8 : IsOrderedCode utf8EncodeChar Char.toNat where
  rank_inj _ _ h := Char.toNat_inj.1 h
  append_lt _ _ h r s := encode_append_lt h r s

/-- Bytes that begin with those of two characters are in the order of the characters, or of what
follows them. -/
theorem encode_append_lt_iff (c d : Char) (r s : List UInt8) :
    utf8EncodeChar c ++ r < utf8EncodeChar d ++ s ↔ c < d ∨ c = d ∧ r < s :=
  isOrderedCode_utf8.append_lt_iff c d r s

/-! ### Texts -/

theorem bytes_ofList (cs : List Char) :
    (String.ofList cs).toUTF8.toList = cs.flatMap utf8EncodeChar := by
  rw [Json.bytes_toList_eq]
  exact List.toList_data_toByteArray

theorem bytes_lt_iff {cs ds : List Char} :
    (String.ofList cs).toUTF8.toList < (String.ofList ds).toUTF8.toList ↔ cs < ds := by
  rw [bytes_ofList, bytes_ofList]
  induction cs generalizing ds with
  | nil =>
    cases ds with
    | nil => simp
    | cons d ds =>
      obtain ⟨b, bytes, hbytes⟩ :=
        List.exists_cons_of_ne_nil (String.utf8EncodeChar_ne_nil (c := d))
      rw [List.flatMap_cons, hbytes]
      simp
  | cons c cs ih =>
    cases ds with
    | nil => simp
    | cons d ds =>
      rw [List.flatMap_cons, List.flatMap_cons, encode_append_lt_iff, ih, List.cons_lt_cons_iff]

end PolicyBook.Text
