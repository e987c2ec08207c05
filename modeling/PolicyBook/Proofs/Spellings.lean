import Mathlib.Data.List.Forall2
import Mathlib.Data.List.TakeWhile
import PolicyBook.Proofs.Lawful
/-!
The spellings of a name.

A name may be spelled in any case and with blanks around it. Only the letters from `a` to `z` have a
case, but any blank of Unicode may stand around. A reader trims the text and compares it in upper
case with the name; what it takes are the spellings:

* **`Text.toUpper_eq_iff`** — characters with one upper case are the same but for their case;
* **`Text.exists_split_trimmed`**, **`Text.trimmed_append`** — what trimming takes away;
* **`Text.trimmed_iff`** — what is trimmed to a text without blanks;
* **`Text.sameLetters_trim_iff`** — which texts are taken for a name.
-/
namespace PolicyBook.Text

/-! ### Case -/

def IsCapitalOf (d c : Char) : Prop := 97 ≤ c.toNat ∧ c.toNat ≤ 122 ∧ d.toNat + 32 = c.toNat

/-- Two characters are the same, or differ in case only. -/
def SameButCase (c d : Char) : Prop := c = d ∨ IsCapitalOf d c ∨ IsCapitalOf c d

theorem toNat_toUpper (c : Char) :
    c.toUpper.toNat = if 97 ≤ c.toNat ∧ c.toNat ≤ 122 then c.toNat - 32 else c.toNat := by
  have hlow : 'a'.val ≤ c.val ↔ 97 ≤ c.toNat := UInt32.le_iff_toNat_le
  have hhigh : c.val ≤ 'z'.val ↔ c.toNat ≤ 122 := UInt32.le_iff_toNat_le
  unfold Char.toUpper
  simp only [hlow, hhigh]
  split
  · have hval : (c.val + ('A'.val - 'a'.val)).toNat = (c.toNat + 4294967264) % 4294967296 :=
      UInt32.toNat_add _ _
    show (c.val + ('A'.val - 'a'.val)).toNat = c.toNat - 32
    omega
  · rfl

theorem toUpper_eq_iff {c d : Char} : c.toUpper = d.toUpper ↔ SameButCase c d := by
  rw [← Char.toNat_inj, toNat_toUpper, toNat_toUpper, SameButCase, IsCapitalOf, IsCapitalOf,
    ← Char.toNat_inj]
  split <;> split <;> omega

theorem SameButCase.isBlank_eq {c d : Char} (h : SameButCase c d) : isBlank c = isBlank d := by
  have hletter (x : Char) (hlow : 65 ≤ x.toNat) (hhigh : x.toNat ≤ 122) : isBlank x = false := by
    rw [isBlank, ← Bool.not_eq_true]
    simp only [Bool.or_eq_true, Bool.and_eq_true, decide_eq_true_eq, beq_iff_eq]
    omega
  rcases h with rfl | ⟨hlow, hhigh, hcapital⟩ | ⟨hlow, hhigh, hcapital⟩
  · rfl
  · rw [hletter c (by omega) (by omega), hletter d (by omega) (by omega)]
  · rw [hletter c (by omega) (by omega), hletter d (by omega) (by omega)]

/-! ### Blanks -/

def AllBlank (cs : List Char) : Prop := ∀ c ∈ cs, isBlank c = true

instance (cs : List Char) : Decidable (AllBlank cs) :=
  List.decidableBAll (fun c => isBlank c = true) cs

theorem allBlank_takeWhile (cs : List Char) : AllBlank (cs.takeWhile isBlank) :=
  fun _ hc => List.mem_takeWhile_imp hc

theorem exists_split_trimmed (cs : List Char) :
    ∃ front back, cs = front ++ trimmed cs ++ back ∧ AllBlank front ∧ AllBlank back := by
  refine ⟨cs.takeWhile isBlank, ((trimmedStart cs).reverse.takeWhile isBlank).reverse, ?_,
    allBlank_takeWhile cs, ?_⟩
  · have hback : trimmed cs ++ ((trimmedStart cs).reverse.takeWhile isBlank).reverse =
        trimmedStart cs := by
      rw [trimmed, trimmedEnd, ← List.reverse_append, List.takeWhile_append_dropWhile,
        List.reverse_reverse]
    rw [List.append_assoc, hback]
    exact List.takeWhile_append_dropWhile.symm
  · intro c hc
    exact allBlank_takeWhile _ c (List.mem_reverse.1 hc)

theorem trimmedStart_append {front cs : List Char} (h : AllBlank front) :
    trimmedStart (front ++ cs) = trimmedStart cs :=
  List.dropWhile_append_of_pos h

theorem trimmedEnd_append {back cs : List Char} (h : AllBlank back) :
    trimmedEnd (cs ++ back) = trimmedEnd cs := by
  have hreverse : AllBlank back.reverse := fun c hc => h c (List.mem_reverse.1 hc)
  rw [trimmedEnd, List.reverse_append]
  exact congrArg List.reverse (trimmedStart_append hreverse)

theorem trimmed_append {front word back : List Char} (hfront : AllBlank front)
    (hback : AllBlank back) (hword : ∀ c ∈ word, isBlank c = false) :
    trimmed (front ++ word ++ back) = word := by
  have hstart {cs : List Char} (h : ∀ c ∈ cs, isBlank c = false) : trimmedStart cs = cs :=
    trimmedStart_eq_self_iff.2 fun c hc => h c (List.mem_of_mem_head? hc)
  have hreverse : trimmedStart word.reverse = word.reverse :=
    hstart fun c hc => hword c (List.mem_reverse.1 hc)
  have hend : trimmedEnd word = word := by
    rw [trimmedEnd, ← trimmedStart, hreverse, List.reverse_reverse]
  rw [trimmed, List.append_assoc, trimmedStart_append hfront]
  cases word with
  | nil =>
    rw [List.nil_append, trimmedStart_eq_nil_iff.2 hback]
    rfl
  | cons c rest =>
    have hhead : trimmedStart (c :: rest ++ back) = c :: rest ++ back := by
      refine trimmedStart_eq_self_iff.2 fun d hd => ?_
      obtain rfl : c = d := Option.some_inj.1 hd
      exact hword c List.mem_cons_self
    rw [hhead, trimmedEnd_append hback, hend]

theorem trimmed_eq_nil_iff {cs : List Char} : trimmed cs = [] ↔ AllBlank cs := by
  constructor
  · intro h
    obtain ⟨front, back, hsplit, hfront, hback⟩ := exists_split_trimmed cs
    rw [h, List.append_nil] at hsplit
    rw [hsplit]
    intro c hc
    exact (List.mem_append.1 hc).elim (hfront c) (hback c)
  · intro h
    rw [trimmed, trimmedStart_eq_nil_iff.2 h]
    rfl

/-- Where texts of a kind have no blanks, a text is trimmed to one of them exactly if it is one of
them with blanks around. -/
theorem trimmed_iff {p : List Char → Prop} {cs : List Char}
    (hp : ∀ word, p word → ∀ c ∈ word, isBlank c = false) :
    p (trimmed cs) ↔
      ∃ front word back, cs = front ++ word ++ back ∧ AllBlank front ∧ AllBlank back ∧ p word := by
  constructor
  · intro h
    obtain ⟨front, back, hsplit, hfront, hback⟩ := exists_split_trimmed cs
    exact ⟨front, _, back, hsplit, hfront, hback, h⟩
  · rintro ⟨front, word, back, rfl, hfront, hback, hword⟩
    rw [trimmed_append hfront hback (hp word hword)]
    exact hword

/-! ### Names -/

/-- A text is a name, in any case and with blanks around it. -/
def IsSpelling (name : String) (cs : List Char) : Prop :=
  ∃ front word back, cs = front ++ word ++ back ∧ AllBlank front ∧ AllBlank back ∧
    List.Forall₂ SameButCase word name.toList

theorem map_toUpper_eq_iff {cs ds : List Char} :
    cs.map Char.toUpper = ds.map Char.toUpper ↔ List.Forall₂ SameButCase cs ds := by
  rw [← List.forall₂_eq_eq_eq, List.forall₂_map_left_iff, List.forall₂_map_right_iff]
  simp only [toUpper_eq_iff]

theorem sameLetters_trim_iff {name s : String} (hname : ∀ c ∈ name.toList, isBlank c = false) :
    sameLetters name (trim s) = true ↔ IsSpelling name s.toList := by
  rw [sameLetters, beq_iff_eq, trim, String.toList_ofList, eq_comm, map_toUpper_eq_iff]
  refine trimmed_iff (p := fun word => List.Forall₂ SameButCase word name.toList) ?_
  intro word hword c hc
  have hupper : c.toUpper ∈ name.toList.map Char.toUpper := by
    rw [← map_toUpper_eq_iff.2 hword]
    exact List.mem_map_of_mem hc
  obtain ⟨d, hd, hcase⟩ := List.mem_map.1 hupper
  rw [← (toUpper_eq_iff.1 hcase).isBlank_eq]
  exact hname d hd

end PolicyBook.Text
