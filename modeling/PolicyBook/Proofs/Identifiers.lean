import PolicyBook.Identity
import PolicyBook.Proofs.Numerals
import PolicyBook.Proofs.Spellings
/-!
Identifiers and their spellings.

An identifier is spelled with its thirty-two digits in a row, or in five groups with hyphens between
them; the groups may stand between braces or behind `urn:uuid:`. Letters have any case. Reading
takes a frame away, takes all hyphens out and puts them in again to see whether they stood there;
the spellings say directly which texts that lets through.

* **`Text.hexDigit?_eq_some_iff`** — a character is read as a digit in either case of it;
* **`Uuid.inGroups_iff`** — a text in groups is a hyphenated row of thirty-two characters;
* **`Uuid.ofText?_eq_some_iff`** — an identifier is read from its spellings;
* **`Uuid.ofText?_text`**, **`Uuid.text_injective`** — the text of an identifier is read back, so
  different identifiers have different texts.
-/
namespace PolicyBook

open Text

namespace Text

theorem toNat_hexDigit (d : Fin 16) :
    (hexDigit d).toNat = if d.val < 10 then 48 + d.val else 87 + d.val := by
  revert d
  decide

theorem hexDigit?_eq_some_iff {c : Char} {d : Fin 16} :
    hexDigit? c = some d ↔ SameButCase c (hexDigit d) := by
  have hd : d.val < 16 := d.isLt
  have hrange (low high : Char) :
      low ≤ c ∧ c ≤ high ↔ low.toNat ≤ c.toNat ∧ c.toNat ≤ high.toNat := Iff.rfl
  have hdecimal : '0'.toNat = 48 ∧ '9'.toNat = 57 := ⟨rfl, rfl⟩
  have hsmall : 'a'.toNat = 97 ∧ 'f'.toNat = 102 := ⟨rfl, rfl⟩
  have hlarge : 'A'.toNat = 65 ∧ 'F'.toNat = 70 := ⟨rfl, rfl⟩
  rw [SameButCase, IsCapitalOf, IsCapitalOf, ← Char.toNat_inj, toNat_hexDigit, hexDigit?]
  simp only [hrange, hdecimal, hsmall, hlarge]
  split_ifs <;> simp only [Option.some_inj, Fin.ext_iff, Fin.val_ofNat, false_iff] <;> omega

/-- Characters spell digits to the base of sixteen, each letter in any case. -/
def SpellsHex (cs : List Char) (ds : List (Fin 16)) : Prop :=
  List.Forall₂ SameButCase cs (ds.map hexDigit)

theorem mapM_hexDigit?_eq_some_iff {cs : List Char} {ds : List (Fin 16)} :
    cs.mapM hexDigit? = some ds ↔ SpellsHex cs ds := by
  rw [mapM_eq_some_iff, SpellsHex, List.forall₂_map_right_iff]
  simp only [hexDigit?_eq_some_iff]

theorem spellsHex_self (ds : List (Fin 16)) : SpellsHex (ds.map hexDigit) ds :=
  List.forall₂_same.2 fun _ _ => .inl rfl

/-- None of the characters that frame or divide an identifier, or mark it, is a digit. -/
theorem SpellsHex.toUpper_ne {cs : List Char} {ds : List (Fin 16)} (h : SpellsHex cs ds) {c : Char}
    (hc : c ∈ cs) : c.toUpper ∉ ['-', '\x7b', 'U', 'P'] := by
  have hdigit : ∀ d, (hexDigit d).toUpper ∉ ['-', '\x7b', 'U', 'P'] := by decide
  have hupper : c.toUpper ∈ cs.map Char.toUpper := List.mem_map_of_mem hc
  rw [map_toUpper_eq_iff.2 h, List.map_map] at hupper
  obtain ⟨d, -, hd⟩ := List.mem_map.1 hupper
  rw [← hd]
  exact hdigit d

theorem SpellsHex.ne_hyphen {cs : List Char} {ds : List (Fin 16)} (h : SpellsHex cs ds) :
    ∀ c ∈ cs, c ≠ '-' := by
  rintro c hc rfl
  exact h.toUpper_ne hc List.mem_cons_self

end Text

namespace Uuid

variable {u : Uuid} {cs digits : List Char}

/-! ### Groups -/

/-- The characters in groups of eight, four, four, four and twelve, with hyphens between them. -/
def InGroups (digits cs : List Char) : Prop :=
  ∃ groups : List (List Char), groups.map List.length = [8, 4, 4, 4, 12] ∧
    groups.flatten = digits ∧ ['-'].intercalate groups = cs

def groupsOf (cs : List Char) : List (List Char) :=
  [cs.take 8, (cs.drop 8).take 4, (cs.drop 12).take 4, (cs.drop 16).take 4, cs.drop 20]

theorem intercalate_groupsOf (cs : List Char) :
    ['-'].intercalate (groupsOf cs) = hyphenated cs := by
  simp [groupsOf, hyphenated, List.intercalate]

theorem flatten_groupsOf (cs : List Char) : (groupsOf cs).flatten = cs := by
  have hgroup (n : Nat) : (cs.drop n).take 4 ++ cs.drop (n + 4) = cs.drop n := by
    rw [← List.drop_drop, List.take_append_drop]
  simp only [groupsOf, List.flatten_cons, List.flatten_nil, List.append_nil]
  rw [hgroup 16, hgroup 12, hgroup 8, List.take_append_drop]

theorem groupsOf_flatten {groups : List (List Char)}
    (h : groups.map List.length = [8, 4, 4, 4, 12]) : groupsOf groups.flatten = groups := by
  simp only [List.map_eq_cons_iff, List.map_eq_nil_iff] at h
  obtain ⟨a, _, rfl, ha, b, _, rfl, hb, c, _, rfl, hc, d, _, rfl, hd, e, _, rfl, -, rfl⟩ := h
  simp only [List.flatten_cons, List.flatten_nil, List.append_nil]
  -- dropping takes away one group after the other
  have hfirst : (a ++ (b ++ (c ++ (d ++ e)))).drop 8 = b ++ (c ++ (d ++ e)) := List.drop_left' ha
  have hsecond : (a ++ (b ++ (c ++ (d ++ e)))).drop 12 = c ++ (d ++ e) := by
    rw [← List.drop_drop (i := 4) (j := 8), hfirst]
    exact List.drop_left' hb
  have hthird : (a ++ (b ++ (c ++ (d ++ e)))).drop 16 = d ++ e := by
    rw [← List.drop_drop (i := 4) (j := 12), hsecond]
    exact List.drop_left' hc
  have hfourth : (a ++ (b ++ (c ++ (d ++ e)))).drop 20 = e := by
    rw [← List.drop_drop (i := 4) (j := 16), hthird]
    exact List.drop_left' hd
  rw [groupsOf, List.take_left' ha, hfirst, List.take_left' hb, hsecond, List.take_left' hc, hthird,
    List.take_left' hd, hfourth]

/-- A text in groups is a row of thirty-two characters with the hyphens put in. -/
theorem inGroups_iff : InGroups digits cs ↔ digits.length = 32 ∧ hyphenated digits = cs := by
  constructor
  · rintro ⟨groups, hlengths, rfl, rfl⟩
    rw [List.length_flatten, hlengths, ← intercalate_groupsOf, groupsOf_flatten hlengths]
    exact ⟨rfl, rfl⟩
  · rintro ⟨hlength, rfl⟩
    refine ⟨groupsOf digits, ?_, flatten_groupsOf digits, intercalate_groupsOf digits⟩
    simp [groupsOf, hlength]

theorem filter_intercalate {groups : List (List Char)} (h : ∀ c ∈ groups.flatten, c ≠ '-') :
    (['-'].intercalate groups).filter (· != '-') = groups.flatten := by
  have hkeep {part : List Char} (hpart : ∀ c ∈ part, c ≠ '-') : part.filter (· != '-') = part :=
    List.filter_eq_self.2 fun c hc => by simpa using hpart c hc
  have hhyphen : ['-'].filter (· != '-') = [] := rfl
  induction groups with
  | nil => rfl
  | cons first rest ih =>
    rw [List.flatten_cons, List.forall_mem_append] at h
    cases rest with
    | nil =>
      rw [List.intercalate_singleton, List.flatten_singleton]
      exact hkeep h.1
    | cons second rest =>
      rw [List.intercalate_cons_cons, List.filter_append, List.filter_append, ih h.2, hkeep h.1,
        hhyphen, List.append_nil]
      exact List.flatten_cons.symm

theorem filter_hyphenated (h : ∀ c ∈ cs, c ≠ '-') : (hyphenated cs).filter (· != '-') = cs := by
  rw [← flatten_groupsOf cs] at h
  rw [← intercalate_groupsOf, filter_intercalate h, flatten_groupsOf]

/-! ### Spellings -/

def IsGrouped (u : Uuid) (cs : List Char) : Prop :=
  ∃ digits, InGroups digits cs ∧ SpellsHex digits u.digits.toList

/-- The texts that stand for an identifier. -/
inductive IsSpelledBy (u : Uuid) : List Char → Prop where
  | plain {cs : List Char} (digits : SpellsHex cs u.digits.toList) : u.IsSpelledBy cs
  | grouped {cs : List Char} (groups : u.IsGrouped cs) : u.IsSpelledBy cs
  | braced {cs : List Char} (groups : u.IsGrouped cs) : u.IsSpelledBy ('\x7b' :: (cs ++ ['\x7d']))
  /-- The groups behind the mark of their kind, its letters in any case. -/
  | marked {kind cs : List Char} (mark : List.Forall₂ SameButCase kind "urn:uuid:".toList)
      (groups : u.IsGrouped cs) : u.IsSpelledBy (kind ++ cs)

theorem ofDigits?_eq_some_iff {ds : List (Fin 16)} :
    ofDigits? ds = some u ↔ ds = u.digits.toList := by
  rw [ofDigits?, Option.dite_none_right_eq_some]
  constructor
  · rintro ⟨_, h⟩
    rw [← Option.some_inj.1 h]
    rfl
  · rintro rfl
    exact ⟨by simp, rfl⟩

theorem ofHex?_eq_some_iff : ofHex? cs = some u ↔ SpellsHex cs u.digits.toList := by
  rw [ofHex?, Option.bind_eq_bind, Option.bind_eq_some_iff]
  simp only [ofDigits?_eq_some_iff, exists_eq_right, mapM_hexDigit?_eq_some_iff]

theorem ofHyphenated?_eq_some_iff : ofHyphenated? cs = some u ↔ u.IsGrouped cs := by
  rw [ofHyphenated?, Option.ite_none_right_eq_some, ofHex?_eq_some_iff]
  constructor
  · rintro ⟨hcs, hdigits⟩
    refine ⟨_, inGroups_iff.2 ⟨?_, hcs.symm⟩, hdigits⟩
    simpa using hdigits.length_eq
  · rintro ⟨digits, hgroups, hdigits⟩
    obtain ⟨-, rfl⟩ := inGroups_iff.1 hgroups
    rw [filter_hyphenated hdigits.ne_hyphen]
    exact ⟨rfl, hdigits⟩

theorem IsGrouped.hyphen_mem (h : u.IsGrouped cs) : '-' ∈ cs := by
  obtain ⟨digits, hgroups, -⟩ := h
  obtain ⟨-, rfl⟩ := inGroups_iff.1 hgroups
  simp [hyphenated]

theorem IsGrouped.exists_cons (h : u.IsGrouped cs) :
    ∃ c rest, cs = c :: rest ∧ c.toUpper ∉ ['-', '\x7b', 'U', 'P'] := by
  obtain ⟨digits, hgroups, hdigits⟩ := h
  obtain ⟨hlength, rfl⟩ := inGroups_iff.1 hgroups
  have hpos : 0 < digits.length := by omega
  obtain ⟨c, rest, rfl⟩ := List.exists_cons_of_length_pos hpos
  exact ⟨c, _, rfl, hdigits.toUpper_ne List.mem_cons_self⟩

theorem ofHex?_eq_none (h : '-' ∈ cs) : ofHex? cs = none := by
  refine Option.eq_none_iff_forall_not_mem.2 fun u hu => ?_
  exact (ofHex?_eq_some_iff.1 hu).toUpper_ne h List.mem_cons_self

/-- A text may have a frame, and then what stands in the frame counts. -/
theorem unframed_cases (cs : List Char) :
    unframed cs = cs ∨ cs = '\x7b' :: (unframed cs ++ ['\x7d']) ∨
      ∃ kind, List.Forall₂ SameButCase kind "urn:uuid:".toList ∧ cs = kind ++ unframed cs := by
  rw [unframed]
  split
  · next hbraces =>
    right
    left
    obtain ⟨front, rfl⟩ := List.getLast?_eq_some_iff.1 hbraces.2
    obtain ⟨rest, hrest⟩ := List.head?_eq_some_iff.1 hbraces.1
    cases front with
    | nil => exact absurd hrest (by simp)
    | cons c front =>
      obtain ⟨rfl, -⟩ := List.cons.inj hrest
      simp
  · split
    · next hmark =>
      right
      right
      exact ⟨cs.take 9, map_toUpper_eq_iff.1 hmark, (List.take_append_drop 9 cs).symm⟩
    · left
      rfl

/-- A text that begins with neither a brace nor `u` has no frame. -/
theorem unframed_of_toUpper_ne {c : Char} {rest : List Char}
    (h : c.toUpper ∉ ['-', '\x7b', 'U', 'P']) : unframed (c :: rest) = c :: rest := by
  rw [unframed, if_neg, if_neg]
  · intro hmark
    have hc : c.toUpper = 'U' := (List.cons.inj hmark).1
    rw [hc] at h
    exact h (by decide)
  · rintro ⟨hhead, -⟩
    obtain rfl : c = '\x7b' := Option.some_inj.1 hhead
    exact h (by decide)

theorem unframed_braced (cs : List Char) : unframed ('\x7b' :: (cs ++ ['\x7d'])) = cs := by
  have hlast : ('\x7b' :: (cs ++ ['\x7d'])).getLast? = some '\x7d' :=
    List.getLast?_concat (l := '\x7b' :: cs)
  rw [unframed, if_pos ⟨rfl, hlast⟩]
  exact List.dropLast_concat

theorem unframed_marked {kind : List Char}
    (h : List.Forall₂ SameButCase kind "urn:uuid:".toList) (cs : List Char) :
    unframed (kind ++ cs) = cs := by
  have hlength : kind.length = 9 := h.length_eq
  have hupper : kind.map Char.toUpper = "URN:UUID:".toList := map_toUpper_eq_iff.2 h
  rw [unframed, if_neg, List.take_left' hlength, if_pos hupper, List.drop_left' hlength]
  rintro ⟨hhead, -⟩
  obtain ⟨c, rest, rfl⟩ := List.exists_cons_of_length_pos (l := kind) (by omega)
  obtain rfl : c = '\x7b' := Option.some_inj.1 hhead
  exact absurd (List.cons.inj hupper).1 (by decide)

theorem ofText?_of_hyphen (h : '-' ∈ cs) :
    ofText? (.ofList cs) = ofHyphenated? (unframed cs) := by
  rw [ofText?, String.toList_ofList, ofHex?_eq_none h]

theorem IsSpelledBy.ofText?_eq (h : u.IsSpelledBy cs) : ofText? (.ofList cs) = some u := by
  cases h with
  | plain digits => rw [ofText?, String.toList_ofList, ofHex?_eq_some_iff.2 digits]
  | grouped groups =>
    obtain ⟨c, rest, rfl, hc⟩ := groups.exists_cons
    rw [ofText?_of_hyphen groups.hyphen_mem, unframed_of_toUpper_ne hc]
    exact ofHyphenated?_eq_some_iff.2 groups
  | braced groups =>
    have hhyphen := List.mem_cons_of_mem '\x7b' (List.mem_append_left ['\x7d'] groups.hyphen_mem)
    rw [ofText?_of_hyphen hhyphen, unframed_braced]
    exact ofHyphenated?_eq_some_iff.2 groups
  | marked mark groups =>
    rw [ofText?_of_hyphen (List.mem_append_right _ groups.hyphen_mem), unframed_marked mark]
    exact ofHyphenated?_eq_some_iff.2 groups

theorem ofText?_eq_some_iff {s : String} : ofText? s = some u ↔ u.IsSpelledBy s.toList := by
  constructor
  · intro h
    rw [ofText?] at h
    cases hhex : ofHex? s.toList with
    | some v =>
      rw [hhex] at h
      obtain rfl := Option.some_inj.1 h
      exact .plain (ofHex?_eq_some_iff.1 hhex)
    | none =>
      rw [hhex] at h
      have hgroups := ofHyphenated?_eq_some_iff.1 h
      rcases unframed_cases s.toList with hcs | hcs | ⟨kind, hkind, hcs⟩
      · rw [hcs] at hgroups
        exact .grouped hgroups
      · rw [hcs]
        exact .braced hgroups
      · rw [hcs]
        exact .marked hkind hgroups
  · intro h
    rw [← h.ofText?_eq, String.ofList_toList]

/-- No spelling begins with `p`. -/
theorem IsSpelledBy.toUpper_ne {c : Char} {rest : List Char} (h : u.IsSpelledBy (c :: rest)) :
    c.toUpper ≠ 'P' := by
  intro hc
  generalize hcs : c :: rest = cs at h
  cases h with
  | plain digits =>
    subst hcs
    exact digits.toUpper_ne List.mem_cons_self (by simp [hc])
  | grouped groups =>
    obtain ⟨d, _, rfl, hd⟩ := groups.exists_cons
    obtain ⟨rfl, -⟩ := List.cons.inj hcs
    exact hd (by simp [hc])
  | braced groups =>
    obtain ⟨rfl, -⟩ := List.cons.inj hcs
    exact absurd hc (by decide)
  | @marked kind _ mark groups =>
    have hupper : kind.map Char.toUpper = "URN:UUID:".toList := map_toUpper_eq_iff.2 mark
    cases kind with
    | nil => exact absurd hupper (by simp)
    | cons d kind =>
      obtain ⟨rfl, -⟩ := List.cons.inj hcs
      have hd : c.toUpper = 'U' := (List.cons.inj hupper).1
      rw [hc] at hd
      exact absurd hd (by decide)

/-! ### Texts -/

theorem inGroups_text (u : Uuid) : InGroups (u.digits.toList.map hexDigit) u.text.toList := by
  rw [inGroups_iff, text, String.toList_ofList]
  exact ⟨by simp, rfl⟩

theorem mem_text {c : Char} (h : c ∈ u.text.toList) : c = '-' ∨ ∃ d, hexDigit d = c := by
  by_cases hc : c = '-'
  · exact .inl hc
  · rw [text, String.toList_ofList] at h
    have hdigit : c ∈ (hyphenated (u.digits.toList.map hexDigit)).filter (· != '-') :=
      List.mem_filter.2 ⟨h, by simpa using hc⟩
    rw [filter_hyphenated (spellsHex_self _).ne_hyphen] at hdigit
    obtain ⟨d, -, hd⟩ := List.mem_map.1 hdigit
    exact .inr ⟨d, hd⟩

theorem ofText?_text (u : Uuid) : ofText? u.text = some u :=
  ofText?_eq_some_iff.2 (.grouped ⟨_, inGroups_text u, spellsHex_self _⟩)

theorem text_injective {u v : Uuid} (h : u.text = v.text) : u = v := by
  have hu := ofText?_text u
  rw [h, ofText?_text] at hu
  exact (Option.some_inj.1 hu).symm

end Uuid

end PolicyBook
