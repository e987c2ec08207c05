import PolicyBook.Proofs.Json.Parts
import PolicyBook.Proofs.Json.Places
import PolicyBook.Proofs.Json.Rest
/-!
The numbers of a value that was read.

The reader makes numbers of numerals and of nothing else. Which kind of number a numeral stands for
is told by how it is written: without fraction and exponent, not minus zero and within sixty-four
bits it stands for an integer (`Numeral.IsInteger`), and in every other way for a floating-point
number. What was taken off a text is followed from numerals to parts, along the recursion of the
reader, and from parts to the value of the whole.

* **`Json.Numeral.value?_eq_int_iff`**, **`Json.Numeral.value?_eq_float_iff`** — what a numeral
  stands for;
* **`Json.takesSpelled`** — every number of a part that is taken off comes from a numeral of the
  text;
* **`Json.isSpelled_of_text`** — so does every number of a value that is read from the text;
* **`Json.IsSpelled.of_at?`** — at whatever place of the value it stands.
-/
namespace PolicyBook.Json

open Text

/-! ### Numerals -/

/-- A numeral is a way to write an integer of sixty-four bits: it has no fraction and no exponent,
and it is not minus zero. -/
structure Numeral.IsInteger (n : Numeral) (i : Int) : Prop where
  fraction_eq : n.fraction = []
  exponent_eq : n.exponent = none
  value_eq : i = if n.negative then -(ofDigits n.whole : Int) else ofDigits n.whole
  not_minus_zero : n.negative = true → i ≠ 0
  least : -(twoTo 63 : Int) ≤ i
  greatest : i ≤ (maxWord : Int)

namespace Numeral

variable {n : Numeral} {i : Int} {x : Double}

theorem value?_of_isInteger (h : n.IsInteger i) : n.value? = some (.int i) := by
  have hvalue := h.value_eq
  have hleast := h.least
  have hgreatest := h.greatest
  have hzero := h.not_minus_zero
  have hfits : if n.negative then 0 < ofDigits n.whole ∧ ofDigits n.whole ≤ twoTo 63
      else ofDigits n.whole ≤ maxWord := by
    split at hvalue
    · next hnegative =>
      rw [if_pos hnegative]
      have := hzero hnegative
      omega
    · next hpositive =>
      rw [if_neg hpositive]
      omega
  rw [value?, if_pos ⟨by simp [h.fraction_eq], by simp [h.exponent_eq], hfits⟩, hvalue]

/-- A numeral stands for an integer, or it is no way to write one and stands for the floating-point
number that is nearest to it, if there is one. -/
theorem value?_cases (n : Numeral) :
    (∃ i, n.IsInteger i) ∨ (∀ i, ¬n.IsInteger i) ∧ n.value? = n.double?.map .float := by
  by_cases h : ∃ i, n.IsInteger i
  · exact .inl h
  · have hnone : ∀ i, ¬n.IsInteger i := fun i hi => h ⟨i, hi⟩
    refine .inr ⟨hnone, ?_⟩
    rw [value?, if_neg]
    rintro ⟨hfraction, hexponent, hfits⟩
    refine h ⟨_, List.isEmpty_iff.1 hfraction, Option.isNone_iff_eq_none.1 hexponent, rfl, ?_, ?_,
      ?_⟩
    all_goals
      have hmost : twoTo 63 ≤ maxWord := by decide
      split at hfits <;> simp_all <;> omega

theorem value?_eq_int_iff : n.value? = some (.int i) ↔ n.IsInteger i := by
  refine ⟨fun h => ?_, value?_of_isInteger⟩
  rcases n.value?_cases with ⟨j, hj⟩ | ⟨-, hvalue⟩
  · rw [value?_of_isInteger hj] at h
    rwa [← Json.int.inj (Option.some_inj.1 h)]
  · rw [hvalue] at h
    obtain ⟨x, -, heq⟩ := Option.map_eq_some_iff.1 h
    exact absurd heq Json.noConfusion

theorem value?_eq_float_iff :
    n.value? = some (.float x) ↔ (∀ i, ¬n.IsInteger i) ∧ n.double? = some x := by
  rcases n.value?_cases with ⟨j, hj⟩ | ⟨hnone, hvalue⟩
  · rw [value?_of_isInteger hj]
    refine ⟨fun h => absurd (Option.some_inj.1 h) Json.noConfusion, fun h => absurd hj (h.1 j)⟩
  · rw [hvalue]
    simp [hnone]

end Numeral

/-! ### Values and parts -/

def Numeral.StandsIn (n : Numeral) (text : List Char) : Prop :=
  ∃ cs rest, cs <:+ text ∧ numeral? cs = some (n, rest)

/-- Every number in a value is what a numeral in a text stands for. -/
inductive IsSpelled (text : List Char) : Json → Prop where
  | null : IsSpelled text .null
  | bool (b : Bool) : IsSpelled text (.bool b)
  | str (s : String) : IsSpelled text (.str s)
  | int (i : Int) (n : Numeral) (hn : n.StandsIn text) (h : n.IsInteger i) :
      IsSpelled text (.int i)
  | float (x : Double) (n : Numeral) (hn : n.StandsIn text) (hnone : ∀ i, ¬n.IsInteger i)
      (h : n.double? = some x) : IsSpelled text (.float x)
  | arr (items : List Json) (each : ∀ v ∈ items, IsSpelled text v) : IsSpelled text (.arr items)
  | obj (members : List (String × Json)) (each : ∀ m ∈ members, IsSpelled text m.2) :
      IsSpelled text (.obj members)

inductive Raw.IsSpelled (text : List Char) : Raw → Prop where
  | value {v : Json} (h : v.IsSpelled text) : IsSpelled text (.value v)
  | unreadable : IsSpelled text .unreadable
  | list (items : List Raw) (each : ∀ r ∈ items, IsSpelled text r) : IsSpelled text (.list items)
  | object (members : List (String × Raw)) (each : ∀ m ∈ members, IsSpelled text m.2) :
      IsSpelled text (.object members)

section

variable {text : List Char}

theorem isSpelled_of_value? {n : Numeral} {v : Json} (hn : n.StandsIn text)
    (h : n.value? = some v) : v.IsSpelled text := by
  rcases n.value?_cases with ⟨i, hi⟩ | ⟨hnone, hvalue⟩
  · rw [Numeral.value?_of_isInteger hi] at h
    rw [← Option.some_inj.1 h]
    exact .int i n hn hi
  · rw [hvalue] at h
    obtain ⟨x, hx, rfl⟩ := Option.map_eq_some_iff.1 h
    exact .float x n hn hnone hx

theorem Raw.IsSpelled.value?_isSpelled {r : Raw} {v : Json} (h : r.IsSpelled text)
    (hv : r.value? = some v) : v.IsSpelled text := by
  induction h generalizing v with
  | value h => rwa [← Option.some_inj.1 hv]
  | unreadable => exact absurd hv nofun
  | list items _ ih =>
    obtain ⟨vs, hvs, rfl⟩ := Option.map_eq_some_iff.1 hv
    refine .arr vs fun w hw => ?_
    have hmem : some w ∈ items.map value? := by
      rw [map_value?_of_itemValues? hvs]
      exact List.mem_map_of_mem hw
    obtain ⟨r, hr, hvalue⟩ := List.mem_map.1 hmem
    exact ih r hr hvalue
  | object members _ ih =>
    obtain ⟨ms, hms, rfl⟩ := Option.map_eq_some_iff.1 hv
    refine .obj ms fun m hm => ?_
    have hmem : (m.1, some m.2) ∈ members.map named := by
      rw [map_named_of_memberValues? hms]
      exact List.mem_map_of_mem (f := fun m : String × Json => (m.1, some m.2)) hm
    obtain ⟨r, hr, hvalue⟩ := List.mem_map.1 hmem
    exact ih r hr (Prod.mk.inj hvalue).2

/-! ### Reading -/

theorem Raw.isSpelled_ofOption {v : Option Json} (h : ∀ w ∈ v, w.IsSpelled text) :
    (Raw.ofOption v).IsSpelled text := by
  cases v with
  | none => exact .unreadable
  | some w => exact .value (h w rfl)

theorem Raw.isSpelled_ofMembers {members : List (List Piece × Raw)}
    (h : ∀ m ∈ members, m.2.IsSpelled text) : (Raw.ofMembers members).IsSpelled text := by
  rw [ofMembers]
  cases hnamed : members.mapM fun m =>
      (Piece.text? m.1).map fun name => (String.ofList name, m.2) with
  | none => exact .unreadable
  | some named =>
    refine .object named fun m hm => ?_
    obtain ⟨m', hm', hname⟩ := exists_of_mapM hnamed hm
    obtain ⟨name, -, rfl⟩ := Option.map_eq_some_iff.1 hname
    exact h m' hm'

/-- What is nested too deep has no value, and no numbers either. -/
theorem Raw.IsSpelled.unless {r : Raw} (h : r.IsSpelled text) (levels : Nat) :
    (if levels = 0 then Raw.unreadable else r).IsSpelled text := by
  split
  · exact .unreadable
  · exact h

theorem scalar?_isSpelled {cs rest : List Char} {r : Raw} (hcs : cs <:+ text)
    (h : scalar? cs = some (r, rest)) : r.IsSpelled text := by
  rw [scalar?.eq_def] at h
  split at h
  · obtain ⟨⟨pieces, rest'⟩, -, h⟩ := Option.bind_eq_some_iff.1 h
    obtain ⟨rfl, -⟩ := Prod.mk.inj (Option.some_inj.1 h)
    refine Raw.isSpelled_ofOption fun w hw => ?_
    obtain ⟨cs, -, rfl⟩ := Option.map_eq_some_iff.1 hw
    exact .str _
  · obtain ⟨rest', -, h⟩ := Option.bind_eq_some_iff.1 h
    obtain ⟨rfl, -⟩ := Prod.mk.inj (Option.some_inj.1 h)
    exact .value .null
  · obtain ⟨rest', -, h⟩ := Option.bind_eq_some_iff.1 h
    obtain ⟨rfl, -⟩ := Prod.mk.inj (Option.some_inj.1 h)
    exact .value (.bool true)
  · obtain ⟨rest', -, h⟩ := Option.bind_eq_some_iff.1 h
    obtain ⟨rfl, -⟩ := Prod.mk.inj (Option.some_inj.1 h)
    exact .value (.bool false)
  · obtain ⟨⟨numeral, rest'⟩, hnumeral, h⟩ := Option.bind_eq_some_iff.1 h
    obtain ⟨rfl, -⟩ := Prod.mk.inj (Option.some_inj.1 h)
    exact Raw.isSpelled_ofOption fun w hw => isSpelled_of_value? ⟨cs, rest', hcs, hnumeral⟩ hw

variable (text) in
/-- With so many steps, whatever is taken off at an end of the text has numbers from numerals of the
text only, and leaves an end of the text. -/
structure TakesSpelled (steps : Nat) : Prop where
  part {levels : Nat} {cs rest : List Char} {r : Raw} (hcs : cs <:+ text)
    (h : takeRaw? steps levels cs = some (r, rest)) : r.IsSpelled text ∧ rest <:+ text
  items {levels : Nat} {cs rest : List Char} {rs : List Raw} (hcs : cs <:+ text)
    (h : takeItems? steps levels cs = some (rs, rest)) :
    (∀ r ∈ rs, r.IsSpelled text) ∧ rest <:+ text
  members {levels : Nat} {cs rest : List Char} {ms : List (List Piece × Raw)} (hcs : cs <:+ text)
    (h : takeMembers? steps levels cs = some (ms, rest)) :
    (∀ m ∈ ms, m.2.IsSpelled text) ∧ rest <:+ text

namespace TakesSpelled

variable {steps levels : Nat} {cs rest : List Char}

theorem part_succ (h : TakesSpelled text steps) {r : Raw} (hcs : cs <:+ text)
    (htake : takeRaw? (steps + 1) levels cs = some (r, rest)) :
    r.IsSpelled text ∧ rest <:+ text := by
  rw [takeRaw?.eq_def] at htake
  simp only at htake
  -- a list, an object or neither; the first two may be closed at once
  split at htake
  · next hopen =>
    have hinside := (suffix_of_unspaced hopen).trans hcs
    split at htake
    · next hclose =>
      obtain ⟨⟨items, rest₁⟩, hitems, htake⟩ := Option.bind_eq_some_iff.1 htake
      obtain ⟨rfl, rfl⟩ := Prod.mk.inj (Option.some_inj.1 hitems)
      obtain ⟨rfl, rfl⟩ := Prod.mk.inj (Option.some_inj.1 htake)
      exact ⟨Raw.IsSpelled.unless (.list [] (List.forall_mem_nil _)) levels,
        (suffix_of_unspaced hclose).trans hinside⟩
    · obtain ⟨⟨items, rest₁⟩, hitems, htake⟩ := Option.bind_eq_some_iff.1 htake
      obtain ⟨rfl, rfl⟩ := Prod.mk.inj (Option.some_inj.1 htake)
      obtain ⟨heach, hrest⟩ := h.items ((unspaced_suffix _).trans hinside) hitems
      exact ⟨Raw.IsSpelled.unless (.list items heach) levels, hrest⟩
  · next hopen =>
    have hinside := (suffix_of_unspaced hopen).trans hcs
    split at htake
    · next hclose =>
      obtain ⟨⟨members, rest₁⟩, hmembers, htake⟩ := Option.bind_eq_some_iff.1 htake
      obtain ⟨rfl, rfl⟩ := Prod.mk.inj (Option.some_inj.1 hmembers)
      obtain ⟨rfl, rfl⟩ := Prod.mk.inj (Option.some_inj.1 htake)
      exact ⟨Raw.IsSpelled.unless (Raw.isSpelled_ofMembers (List.forall_mem_nil _)) levels,
        (suffix_of_unspaced hclose).trans hinside⟩
    · obtain ⟨⟨members, rest₁⟩, hmembers, htake⟩ := Option.bind_eq_some_iff.1 htake
      obtain ⟨rfl, rfl⟩ := Prod.mk.inj (Option.some_inj.1 htake)
      obtain ⟨heach, hrest⟩ := h.members ((unspaced_suffix _).trans hinside) hmembers
      exact ⟨Raw.IsSpelled.unless (Raw.isSpelled_ofMembers heach) levels, hrest⟩
  · have hscalar := (unspaced_suffix cs).trans hcs
    exact ⟨scalar?_isSpelled hscalar htake, (scalar?_suffix htake).trans hscalar⟩

theorem items_succ (h : TakesSpelled text steps) {rs : List Raw} (hcs : cs <:+ text)
    (htake : takeItems? (steps + 1) levels cs = some (rs, rest)) :
    (∀ r ∈ rs, r.IsSpelled text) ∧ rest <:+ text := by
  rw [takeItems?] at htake
  obtain ⟨⟨r, rest₁⟩, hr, htake⟩ := Option.bind_eq_some_iff.1 htake
  obtain ⟨hspelled, hrest₁⟩ := h.part hcs hr
  dsimp only at htake
  split at htake
  · next hcomma =>
    obtain ⟨⟨rs₁, rest₂⟩, hrs, htake⟩ := Option.bind_eq_some_iff.1 htake
    obtain ⟨rfl, rfl⟩ := Prod.mk.inj (Option.some_inj.1 htake)
    obtain ⟨heach, hrest⟩ := h.items ((suffix_of_unspaced hcomma).trans hrest₁) hrs
    exact ⟨List.forall_mem_cons.2 ⟨hspelled, heach⟩, hrest⟩
  · next hclose =>
    obtain ⟨rfl, rfl⟩ := Prod.mk.inj (Option.some_inj.1 htake)
    exact ⟨List.forall_mem_singleton.2 hspelled, (suffix_of_unspaced hclose).trans hrest₁⟩
  · exact absurd htake nofun

theorem members_succ (h : TakesSpelled text steps) {ms : List (List Piece × Raw)}
    (hcs : cs <:+ text) (htake : takeMembers? (steps + 1) levels cs = some (ms, rest)) :
    (∀ m ∈ ms, m.2.IsSpelled text) ∧ rest <:+ text := by
  rw [takeMembers?] at htake
  obtain ⟨⟨name, rest₁⟩, hname, htake⟩ := Option.bind_eq_some_iff.1 htake
  have hrest₁ := (pieces?_suffix hname).trans ((unspaced_suffix cs).trans hcs)
  dsimp only at htake
  split at htake
  · next hcolon =>
    obtain ⟨⟨r, rest₂⟩, hr, htake⟩ := Option.bind_eq_some_iff.1 htake
    obtain ⟨hspelled, hrest₂⟩ := h.part ((suffix_of_unspaced hcolon).trans hrest₁) hr
    dsimp only at htake
    split at htake
    · next hcomma =>
      obtain ⟨⟨ms₁, rest₃⟩, hms, htake⟩ := Option.bind_eq_some_iff.1 htake
      obtain ⟨rfl, rfl⟩ := Prod.mk.inj (Option.some_inj.1 htake)
      obtain ⟨heach, hrest⟩ := h.members ((suffix_of_unspaced hcomma).trans hrest₂) hms
      exact ⟨List.forall_mem_cons.2 ⟨hspelled, heach⟩, hrest⟩
    · next hclose =>
      obtain ⟨rfl, rfl⟩ := Prod.mk.inj (Option.some_inj.1 htake)
      exact ⟨List.forall_mem_singleton.2 hspelled, (suffix_of_unspaced hclose).trans hrest₂⟩
    · exact absurd htake nofun
  · exact absurd htake nofun

end TakesSpelled

theorem takesSpelled (steps : Nat) : TakesSpelled text steps := by
  induction steps with
  | zero => exact ⟨nofun, nofun, nofun⟩
  | succ steps ih => exact ⟨ih.part_succ, ih.items_succ, ih.members_succ⟩

theorem isSpelled_of_text {s : String} {v : Json} (h : ofText? s = some v) :
    v.IsSpelled s.toList := by
  obtain ⟨r, hr, hv⟩ := Option.bind_eq_some_iff.1 h
  obtain ⟨⟨r₁, rest⟩, htake, hr⟩ := Option.bind_eq_some_iff.1 hr
  obtain ⟨_, -, hr⟩ := Option.bind_eq_some_iff.1 hr
  obtain rfl := Option.some_inj.1 hr
  exact ((takesSpelled _).part List.suffix_rfl htake).1.value?_isSpelled hv

/-! ### Places -/

theorem IsSpelled.of_step? {v w : Json} {step : Step} (h : v.IsSpelled text)
    (hstep : v.step? step = some w) : w.IsSpelled text := by
  cases h with
  | null | bool | int | float | str => exact absurd hstep nofun
  | arr items each =>
    cases step with
    | item i => exact each w (List.mem_of_getElem? hstep)
    | member name => exact absurd hstep nofun
  | obj members each =>
    cases step with
    | item i => exact absurd hstep nofun
    | member name => exact each _ (mem_of_step? hstep)

theorem IsSpelled.of_at? {v w : Json} {place : List Step} (h : v.IsSpelled text)
    (hplace : v.at? place = some w) : w.IsSpelled text := by
  induction place generalizing v with
  | nil => rwa [← Option.some_inj.1 hplace]
  | cons step rest ih =>
    obtain ⟨u, hstep, hu⟩ := Option.bind_eq_some_iff.1 hplace
    exact ih (h.of_step? hstep) hu

end

end PolicyBook.Json
