import Mathlib.Tactic.SplitIfs
import PolicyBook.Proofs.Coding
import PolicyBook.Proofs.Json.Quoted
/-!
Two orders of names.

The canonical form prescribes that names are compared as rows of UTF-16 code units. They can also be
compared as they are written, with the escapes and the quotation mark at the end. Both orders decide
at the first place where two names differ, and `Reversed` says for which differences they disagree:
where one name ends and the other goes on with a blank or an exclamation mark; where one of the
characters is written with a backslash; and where one of them takes two code units.

* **`isOrderedCode_units`**, **`isOrderedCode_escaped`** — both orders, character by character;
* **`reversed_iff`** — the pairs of names about which they disagree;
* **`not_reversed`** — there are none among names of ordinary characters.
-/
namespace PolicyBook.Json

open Text

def units (c : Char) : List Nat :=
  if c.toNat < 0x10000 then [c.toNat]
  else [0xD800 + (c.toNat - 0x10000) / 0x400, 0xDC00 + (c.toNat - 0x10000) % 0x400]

/-- The first name comes first as it is prescribed: its row of code units is smaller. -/
def Prescribed (a b : String) : Prop := a.toList.flatMap units < b.toList.flatMap units

/-- The first name comes first as names are written. -/
def Written (a b : String) : Prop := quote a < quote b

/-! ### Code units -/

/-- No character has the number of half a character. -/
theorem number_cases (c : Char) : c.toNat < 0xD800 ∨ 0xDFFF < c.toNat ∧ c.toNat < 0x110000 :=
  c.valid

/-- Where a character comes among all others in the order of code units: halves of characters take
the numbers from U+D800 on, so characters made of them come before those from U+E000 on. -/
def unitRank (n : Nat) : Nat := if 0xE000 ≤ n ∧ n < 0x10000 then n + 0x110000 else n

theorem isOrderedCode_units : IsOrderedCode units fun c => unitRank c.toNat where
  rank_inj c d h := by
    have hc := number_cases c
    have hd := number_cases d
    unfold unitRank at h
    refine Char.toNat_inj.1 ?_
    split_ifs at h <;> omega
  append_lt c d h r s := by
    have hc := number_cases c
    have hd := number_cases d
    unfold units
    unfold unitRank at h
    split_ifs <;> simp only [List.cons_append, List.nil_append, List.cons_lt_cons_iff]
    all_goals split_ifs at h <;> omega

/-! ### Written names -/

/-- Where a character comes among all others as it is written. Those with a backslash come where
the backslash comes, by the letter behind it. -/
def writtenRank (c : Char) : Nat :=
  match escaped c with
  | [_] => 0x100 * c.toNat
  | [_, letter] => 0x5C00 + letter.toNat
  | _ => 0x5C00 + 'u'.toNat + c.toNat

theorem escaped_cases (c : Char) :
    (∃ letter : Char, escaped c = ['\\', letter] ∧ letter.toNat < 0x75 ∧
      writtenRank c = 0x5C00 + letter.toNat ∧
      (c.toNat < 0x20 ∧ 0x62 ≤ letter.toNat ∨ c = letter ∧ (c = '"' ∨ c = '\\'))) ∨
    (escaped c = '\\' :: 'u' :: '0' :: '0' :: hexByte c.toNat.toUInt8 ∧ c.toNat < 0x20 ∧
      writtenRank c = 0x5C75 + c.toNat) ∨
    (escaped c = [c] ∧ (0x20 ≤ c.toNat ∧ c.toNat ≠ 0x22 ∧ c.toNat ≠ 0x5C) ∧
      writtenRank c = 0x100 * c.toNat) := by
  unfold writtenRank
  by_cases hletter : c ∈ ['"', '\\', '\x08', '\x0c', '\n', '\r', '\t']
  · simp only [List.mem_cons, List.not_mem_nil, or_false] at hletter
    rcases hletter with rfl | rfl | rfl | rfl | rfl | rfl | rfl <;>
      exact .inl ⟨_, rfl, by decide, rfl, by decide⟩
  · simp only [List.mem_cons, List.not_mem_nil, or_false, not_or] at hletter
    obtain ⟨hquote, hbackslash, hb, hf, hn, hr, ht⟩ := hletter
    rw [escaped, if_neg hquote, if_neg hbackslash, if_neg hb, if_neg hf, if_neg hn, if_neg hr,
      if_neg ht]
    by_cases hcontrol : c.toNat < 0x20
    · rw [if_pos hcontrol]
      exact .inr (.inl ⟨rfl, hcontrol, rfl⟩)
    · rw [if_neg hcontrol]
      have hplain (d : Char) (hd : c ≠ d) : c.toNat ≠ d.toNat := fun h => hd (Char.toNat_inj.1 h)
      exact .inr (.inr ⟨rfl, ⟨by omega, hplain _ hquote, hplain _ hbackslash⟩, rfl⟩)

theorem hexDigit_lt {i j : Fin 16} (h : i < j) : hexDigit i < hexDigit j := by
  revert i j
  decide

theorem hexByte_append_lt {m n : Nat} (h : m < n) (hn : n < 0x20) (r s : List Char) :
    hexByte m.toUInt8 ++ r < hexByte n.toUInt8 ++ s := by
  have hmbyte : m.toUInt8.toNat = m := Nat.mod_eq_of_lt (by omega)
  have hnbyte : n.toUInt8.toNat = n := Nat.mod_eq_of_lt (by omega)
  rw [hexByte, hexByte, hmbyte, hnbyte]
  simp only [List.cons_append, List.nil_append, List.cons_lt_cons_iff]
  by_cases hhigh : m / 16 = n / 16
  · rw [hhigh]
    refine .inr ⟨rfl, .inl (hexDigit_lt ?_)⟩
    rw [Fin.lt_def, Fin.val_ofNat, Fin.val_ofNat]
    omega
  · refine .inl (hexDigit_lt ?_)
    rw [Fin.lt_def, Fin.val_ofNat, Fin.val_ofNat]
    omega

theorem escaped_injective {c d : Char} (h : escaped c = escaped d) : c = d := by
  have hc := unquoted?_escaped [c] [] (Nat.lt_succ_self 1)
  have hd := unquoted?_escaped [d] [] (Nat.lt_succ_self 1)
  simp only [List.flatMap_singleton, h] at hc hd
  rw [hd] at hc
  simpa using hc.symm

theorem isOrderedCode_escaped : IsOrderedCode escaped writtenRank where
  rank_inj c d h := by
    rcases escaped_cases c with
      ⟨k, hc, hk, hrank, -⟩ | ⟨hc, hcontrol, hrank⟩ | ⟨hc, hplain, hrank⟩ <;>
      rcases escaped_cases d with ⟨l, hd, hl, hrank', -⟩ | ⟨hd, hcontrol', hrank'⟩ |
        ⟨hd, hplain', hrank'⟩
    case inl.inl =>
      obtain rfl : k = l := Char.toNat_inj.1 (by omega)
      exact escaped_injective (hc.trans hd.symm)
    -- the ranks of the three kinds lie apart
    all_goals exact Char.toNat_inj.1 (by omega)
  append_lt c d h r s := by
    rcases escaped_cases c with
      ⟨k, hc, hk, hrank, -⟩ | ⟨hc, hcontrol, hrank⟩ | ⟨hc, hplain, hrank⟩ <;>
      rcases escaped_cases d with ⟨l, hd, hl, hrank', -⟩ | ⟨hd, hcontrol', hrank'⟩ |
        ⟨hd, hplain', hrank'⟩ <;>
      rw [hc, hd] <;> simp only [List.cons_append, List.nil_append, List.cons_lt_cons_iff]
    case inl.inl => exact .inr ⟨trivial, .inl (show k.toNat < l.toNat by omega)⟩
    case inl.inr.inl => exact .inr ⟨trivial, .inl (show k.toNat < 0x75 from hk)⟩
    case inl.inr.inr => exact .inl (show 0x5C < d.toNat by omega)
    case inr.inl.inl => omega
    case inr.inl.inr.inl =>
      have hbytes := hexByte_append_lt (show c.toNat < d.toNat by omega) hcontrol' r s
      exact .inr ⟨trivial, .inr ⟨trivial, .inr ⟨trivial, .inr ⟨trivial, hbytes⟩⟩⟩⟩
    case inr.inl.inr.inr => exact .inl (show 0x5C < d.toNat by omega)
    case inr.inr.inl => exact .inl (show c.toNat < 0x5C by omega)
    case inr.inr.inr.inl => exact .inl (show c.toNat < 0x5C by omega)
    case inr.inr.inr.inr => exact .inl (show c.toNat < d.toNat by omega)

theorem writtenRank_cases (c : Char) :
    (c.toNat < 0x20 ∧ 0x5C62 ≤ writtenRank c ∧ writtenRank c < 0x5C95) ∨
    ((c.toNat = 0x22 ∨ c.toNat = 0x5C) ∧ writtenRank c = 0x5C00 + c.toNat) ∨
    ((0x20 ≤ c.toNat ∧ c.toNat ≠ 0x22 ∧ c.toNat ≠ 0x5C) ∧ writtenRank c = 0x100 * c.toNat) := by
  rcases escaped_cases c with ⟨letter, -, hless, hrank, hkind⟩ | ⟨-, hcontrol, hrank⟩ | ⟨-, h⟩
  · rcases hkind with ⟨hcontrol, hletter⟩ | ⟨rfl, hkind⟩
    · exact .inl ⟨hcontrol, by omega⟩
    · refine .inr (.inl ⟨?_, hrank⟩)
      rcases hkind with rfl | rfl
      · exact .inl rfl
      · exact .inr rfl
  · exact .inl ⟨hcontrol, by omega⟩
  · exact .inr (.inr h)

/-! ### Where the orders disagree -/

/-- The control characters that have a letter of their own behind the backslash, in the order of
these letters. -/
def lettered : List Char := ['\x08', '\x0c', '\n', '\r', '\t']

/-- The first character is prescribed to come first and is written as one that comes later. -/
inductive Inverted : Char → Char → Prop where
  /-- Control characters come first, but are written with a backslash and a small letter. -/
  | control {c d : Char} (hc : c.toNat < 0x20) (hd : 0x20 ≤ d.toNat) (hle : d.toNat ≤ 0x5C) :
    Inverted c d
  /-- Among control characters the letters decide; most are written with a `u`. -/
  | letters {c d : Char} (h : c.toNat < d.toNat) (hd : d.toNat < 0x20)
    (hletters : lettered.idxOf d < lettered.idxOf c) : Inverted c d
  /-- The quotation mark is written with a backslash. -/
  | quotation {c d : Char} (hc : c.toNat = 0x22) (h : 0x22 < d.toNat) (hlt : d.toNat < 0x5C) :
    Inverted c d
  /-- Characters of two code units come before some with smaller numbers. -/
  | halves {c d : Char} (hc : 0x10000 ≤ c.toNat) (hd : 0xE000 ≤ d.toNat) (hlt : d.toNat < 0x10000) :
    Inverted c d

/-- The first name is prescribed to come first and is written as one that comes later. -/
inductive Reversed : List Char → List Char → Prop where
  /-- Where a name ends, a quotation mark is written. -/
  | ends (c : Char) (rest : List Char) (h : c = ' ' ∨ c = '!') : Reversed [] (c :: rest)
  | parts (c d : Char) (r s : List Char) (h : Inverted c d) : Reversed (c :: r) (d :: s)
  | cons (c : Char) {r s : List Char} (h : Reversed r s) : Reversed (c :: r) (c :: s)

theorem inverted_control_iff {c d : Char} (hc : c.toNat < 0x20) (hd : d.toNat < 0x20) :
    lettered.idxOf d < lettered.idxOf c ∧ c.toNat < d.toNat ↔
      writtenRank d < writtenRank c ∧ c.toNat < d.toNat := by
  have hall : ∀ m < 0x20, ∀ n < 0x20,
      (lettered.idxOf (Char.ofNat n) < lettered.idxOf (Char.ofNat m) ∧ m < n ↔
        writtenRank (Char.ofNat n) < writtenRank (Char.ofNat m) ∧ m < n) := by
    decide
  have h := hall c.toNat hc d.toNat hd
  rwa [Char.ofNat_toNat, Char.ofNat_toNat] at h

theorem unitRank_of_lt {n : Nat} (h : n < 0xE000) : unitRank n = n := by
  rw [unitRank, if_neg (by omega)]

/-- The orders disagree about two characters that are inverted, and about no others. -/
theorem inverted_iff {c d : Char} : Inverted c d ↔
    unitRank c.toNat < unitRank d.toNat ∧ writtenRank d < writtenRank c := by
  have hc := writtenRank_cases c
  have hd := writtenRank_cases d
  constructor
  · intro h
    cases h with
    | control hcontrol hge hle =>
      rw [unitRank_of_lt (by omega), unitRank_of_lt (by omega)]
      omega
    | letters hlt hcontrol hletters =>
      rw [unitRank_of_lt (by omega), unitRank_of_lt (by omega)]
      have := (inverted_control_iff (by omega) hcontrol).1 ⟨hletters, hlt⟩
      omega
    | quotation hquote hgt hlt =>
      rw [unitRank_of_lt (by omega), unitRank_of_lt (by omega)]
      omega
    | halves hge hge' hlt =>
      rw [unitRank, unitRank, if_neg (by omega), if_pos ⟨hge', hlt⟩]
      have hbound := number_cases c
      omega
  · rintro ⟨hunits, hwritten⟩
    by_cases hlt : c.toNat < d.toNat
    · -- the character with the smaller number is written later, so it has a backslash
      rcases hc with ⟨hcontrol, hrank⟩ | ⟨hkind, hrank⟩ | ⟨hkind, hrank⟩
      · by_cases hcontrol' : d.toNat < 0x20
        · have hletters := (inverted_control_iff hcontrol hcontrol').2 ⟨hwritten, hlt⟩
          exact .letters hlt hcontrol' hletters.1
        · exact .control hcontrol (by omega) (by omega)
      · exact .quotation (by omega) (by omega) (by omega)
      · omega
    · -- the character with the larger number comes first, so it takes two code units
      unfold unitRank at hunits
      split_ifs at hunits with hfirst hsecond hsecond
      · omega
      · omega
      · exact .halves (by omega) hsecond.1 hsecond.2
      · omega

/-- Only a blank and an exclamation mark are written in front of a quotation mark. -/
theorem escaped_append_lt_iff (c : Char) (r : List Char) :
    escaped c ++ r < ['"'] ↔ c = ' ' ∨ c = '!' := by
  have hblank : c = ' ' ↔ c.toNat = 0x20 := Char.toNat_inj.symm
  have hmark : c = '!' ↔ c.toNat = 0x21 := Char.toNat_inj.symm
  have hbackslash (r : List Char) : ¬ '\\' :: r < ['"'] := by
    rw [List.cons_lt_cons_iff]
    rintro (h | ⟨h, -⟩) <;> exact absurd h (by decide)
  rw [hblank, hmark]
  rcases escaped_cases c with ⟨letter, hc, -, -, hkind⟩ | ⟨hc, hcontrol, -⟩ | ⟨hc, hplain, -⟩
  · rw [hc]
    refine iff_of_false (hbackslash _) ?_
    rcases hkind with ⟨hcontrol, -⟩ | ⟨-, rfl | rfl⟩
    · omega
    · decide
    · decide
  · rw [hc]
    exact iff_of_false (hbackslash _) (by omega)
  · rw [hc, List.singleton_append, List.cons_lt_cons_iff]
    have hlt : c < '"' ↔ c.toNat < 0x22 := Iff.rfl
    have hne : c ≠ '"' := fun h => hplain.2.1 (congrArg Char.toNat h)
    simp only [hlt, hne, false_and, or_false]
    omega

theorem nil_lt_units_append (c : Char) (r : List Nat) : [] < units c ++ r := by
  unfold units
  split <;> exact List.nil_lt_cons _ _

theorem reversed_iff (as bs : List Char) : Reversed as bs ↔
    as.flatMap units < bs.flatMap units ∧
      bs.flatMap escaped ++ ['"'] < as.flatMap escaped ++ ['"'] := by
  induction as generalizing bs with
  | nil =>
    cases bs with
    | nil =>
      refine iff_of_false (fun h => nomatch h) fun h => ?_
      exact List.lt_irrefl _ h.1
    | cons d bs =>
      rw [List.flatMap_cons, List.flatMap_cons, List.append_assoc]
      refine Iff.trans ?_ (and_iff_right (nil_lt_units_append d _)).symm
      refine Iff.trans ?_ (escaped_append_lt_iff d _).symm
      exact ⟨fun h => by cases h with | ends _ _ h => exact h, .ends d bs⟩
  | cons c as ih =>
    cases bs with
    | nil =>
      refine iff_of_false (fun h => nomatch h) fun h => ?_
      exact List.not_lt_nil _ h.1
    | cons d bs =>
      rw [List.flatMap_cons, List.flatMap_cons, List.flatMap_cons, List.flatMap_cons,
        isOrderedCode_units.append_lt_iff, List.append_assoc, List.append_assoc,
        isOrderedCode_escaped.append_lt_iff]
      constructor
      · intro h
        cases h with
        | parts _ _ _ _ h => exact (inverted_iff.1 h).imp .inl .inl
        | cons _ h => exact ((ih bs).1 h).imp (fun h => .inr ⟨rfl, h⟩) fun h => .inr ⟨rfl, h⟩
      · rintro ⟨hunits, hwritten⟩
        by_cases hcd : c = d
        · subst hcd
          rw [or_iff_right (Nat.lt_irrefl _), and_iff_right rfl] at hunits hwritten
          exact .cons c ((ih bs).2 ⟨hunits, hwritten⟩)
        · have hfirst := hunits.resolve_right fun h => hcd h.1
          have hsecond := hwritten.resolve_right fun h => hcd h.1.symm
          exact .parts c d as bs (inverted_iff.2 ⟨hfirst, hsecond⟩)

/-- A character that is written as it is, in one code unit and behind a quotation mark. -/
def Ordinary (c : Char) : Prop :=
  0x22 < c.toNat ∧ c.toNat ≠ 0x5C ∧ c.toNat < 0xE000

theorem not_reversed {as bs : List Char} (has : ∀ c ∈ as, Ordinary c) (hbs : ∀ c ∈ bs, Ordinary c) :
    ¬Reversed as bs := by
  intro h
  induction h with
  | ends c rest h =>
    obtain ⟨hc, -⟩ := hbs c List.mem_cons_self
    rcases h with rfl | rfl
    · exact absurd hc (by decide)
    · exact absurd hc (by decide)
  | parts c d r s h =>
    obtain ⟨hc, hbackslash, hone⟩ := has c List.mem_cons_self
    cases h with
    | control hcontrol => omega
    | letters h hd => omega
    | quotation hquote => omega
    | halves hge => omega
  | cons c _ ih =>
    exact ih (fun c hc => has c (List.mem_cons_of_mem _ hc))
      fun c hc => hbs c (List.mem_cons_of_mem _ hc)

theorem quote_injective {a b : String} (h : quote a = quote b) : a = b :=
  (quote_append_inj (congrArg (· ++ []) h)).1

theorem written_or {a b : String} (h : a ≠ b) : Written a b ∨ Written b a := by
  by_cases hlt : quote a < quote b
  · exact .inl hlt
  · by_cases hgt : quote b < quote a
    · exact .inr hgt
    · exact absurd (quote_injective (Std.Trichotomous.trichotomous _ _ hlt hgt)) h

theorem prescribed_or {a b : String} (h : a ≠ b) : Prescribed a b ∨ Prescribed b a :=
  isOrderedCode_units.flatMap_lt_or nil_lt_units_append fun hlists => h (String.toList_inj.1 hlists)

theorem written_iff {a b : String} : Written a b ↔
    a.toList.flatMap escaped ++ ['"'] < b.toList.flatMap escaped ++ ['"'] := by
  show '"' :: (a.toList.flatMap escaped ++ ['"']) < '"' :: (b.toList.flatMap escaped ++ ['"']) ↔ _
  exact List.cons_lt_cons_self

/-- A name that is written first is prescribed to come first, unless the other one is reversed. -/
theorem Written.prescribed_iff {a b : String} (h : Written a b) :
    Prescribed a b ↔ ¬Reversed b.toList a.toList := by
  rw [reversed_iff, and_iff_left (written_iff.1 h)]
  constructor
  · intro hprescribed
    exact List.lt_asymm hprescribed
  · intro hnot
    have hne : a ≠ b := by
      rintro rfl
      exact List.lt_irrefl _ h
    exact (prescribed_or hne).resolve_right hnot

end PolicyBook.Json
