import PolicyBook.Proofs.RoundTrip.Reading
/-!
The identifiers of policies in texts.

The identifier of a policy is spelled as its number is, or with the mark `policy:` in front of that.
The mark counts once and only as it stands here: behind it, and where it stands otherwise, there
must be a number, and no spelling of a number begins with `p`. What is shown to people has the mark,
what is written as JSON has none, and both have the digits in lower case and in groups.

* **`PolicyId.isSpelledBy_iff`** — the spellings are those of the number behind the mark, if any;
* **`PolicyId.parse_eq_ok_iff`** — an identifier is read from its spellings;
* **`PolicyId.line_encode`** — the JSON text of an identifier;
* **`PolicyId.spellings_are_read`** — all of it together.
-/
namespace PolicyBook

open Text

namespace Uuid

theorem flatMap_escaped_text (u : Uuid) : u.text.toList.flatMap Json.escaped = u.text.toList := by
  have hhyphen : Json.escaped '-' = ['-'] := by decide
  have hdigit : ∀ d, Json.escaped (hexDigit d) = [hexDigit d] := by decide
  have hplain : ∀ c ∈ u.text.toList, Json.escaped c = [c] := by
    intro c hc
    rcases mem_text hc with rfl | ⟨d, rfl⟩
    · exact hhyphen
    · exact hdigit d
  rw [List.flatMap_congr hplain, List.flatMap_singleton']

end Uuid

namespace PolicyId

variable {id : PolicyId} {s : String} {cs : List Char}

/-- The texts that stand for an identifier: the spellings of its number, with the mark in front or
without. -/
def IsSpelledBy (id : PolicyId) (cs : List Char) : Prop :=
  id.uuid.IsSpelledBy cs ∨ ∃ bare, cs = mark.toList ++ bare ∧ id.uuid.IsSpelledBy bare

/-! ### The mark -/

def unmarked (cs : List Char) : List Char :=
  if mark.toList.isPrefixOf cs then cs.drop mark.length else cs

theorem unmarked_append (rest : List Char) : unmarked (mark.toList ++ rest) = rest := by
  have hmark : mark.toList.isPrefixOf (mark.toList ++ rest) = true :=
    List.isPrefixOf_iff_prefix.2 (List.prefix_append _ _)
  rw [unmarked, if_pos hmark]
  exact List.drop_left' rfl

theorem unmarked_eq_self (h : ¬ mark.toList <+: cs) : unmarked cs = cs :=
  if_neg (mt List.isPrefixOf_iff_prefix.1 h)

theorem not_isSpelledBy_mark (u : Uuid) (rest : List Char) :
    ¬ u.IsSpelledBy (mark.toList ++ rest) := by
  intro h
  exact Uuid.IsSpelledBy.toUpper_ne (c := 'p') h rfl

theorem isSpelledBy_iff : id.IsSpelledBy cs ↔ id.uuid.IsSpelledBy (unmarked cs) := by
  by_cases hmark : mark.toList <+: cs
  · obtain ⟨rest, rfl⟩ := hmark
    rw [unmarked_append]
    constructor
    · rintro (h | ⟨rest', hrest, h⟩)
      · exact absurd h (not_isSpelledBy_mark _ rest)
      · rw [List.append_cancel_left hrest]
        exact h
    · intro h
      exact .inr ⟨rest, rfl, h⟩
  · rw [unmarked_eq_self hmark]
    constructor
    · rintro (h | ⟨rest, rfl, -⟩)
      · exact h
      · exact absurd (List.prefix_append _ _) hmark
    · exact .inl

/-! ### Reading -/

theorem parse_cases (s : String) :
    (∃ u, Uuid.ofText? (.ofList (unmarked s.toList)) = some u ∧ parse s = .ok ⟨u⟩) ∨
      Uuid.ofText? (.ofList (unmarked s.toList)) = none ∧
        parse s = .error (.malformedPolicyId s) := by
  cases hread : Uuid.ofText? (.ofList (unmarked s.toList)) with
  | some u =>
    rw [unmarked] at hread
    exact .inl ⟨u, rfl, by rw [parse, hread]⟩
  | none =>
    rw [unmarked] at hread
    exact .inr ⟨rfl, by rw [parse, hread]⟩

theorem ofText?_unmarked_iff :
    Uuid.ofText? (.ofList (unmarked s.toList)) = some id.uuid ↔ id.IsSpelledBy s.toList := by
  rw [Uuid.ofText?_eq_some_iff, String.toList_ofList, isSpelledBy_iff]

theorem parse_eq_ok_iff : parse s = .ok id ↔ id.IsSpelledBy s.toList := by
  rw [← ofText?_unmarked_iff]
  rcases parse_cases s with ⟨u, hu, hparse⟩ | ⟨hnone, hparse⟩
  · rw [hu, hparse, Except.ok.injEq, Option.some_inj]
    constructor
    · rintro rfl
      rfl
    · rintro rfl
      rfl
  · rw [hnone, hparse]
    simp

theorem parse_eq_error_iff {refusal : Refusal} :
    parse s = .error refusal ↔
      (∀ id : PolicyId, ¬ id.IsSpelledBy s.toList) ∧ refusal = .malformedPolicyId s := by
  simp only [← parse_eq_ok_iff]
  rcases parse_cases s with ⟨u, -, hparse⟩ | ⟨-, hparse⟩
  · rw [hparse]
    simp
  · rw [hparse]
    simp [eq_comm]

/-- Behind the mark, or where it should stand, nothing begins with `p` in either case. -/
theorem parse_eq_error_of_toUpper {c : Char} {rest : List Char}
    (hs : unmarked s.toList = c :: rest) (hc : c.toUpper = 'P') :
    parse s = .error (.malformedPolicyId s) := by
  refine parse_eq_error_iff.2 ⟨fun id h => ?_, rfl⟩
  rw [isSpelledBy_iff, hs] at h
  exact h.toUpper_ne hc

theorem parse_mark_mark (s : String) :
    parse (mark ++ mark ++ s) = .error (.malformedPolicyId (mark ++ mark ++ s)) := by
  have hrest : unmarked (mark ++ mark ++ s).toList = mark.toList ++ s.toList := by
    rw [String.toList_append, String.toList_append, List.append_assoc, unmarked_append]
  exact parse_eq_error_of_toUpper (c := 'p') hrest rfl

theorem parse_otherCase {other : String} (hcase : List.Forall₂ SameButCase other.toList mark.toList)
    (hne : other ≠ mark) (s : String) :
    parse (other ++ s) = .error (.malformedPolicyId (other ++ s)) := by
  have hlength : mark.toList.length = other.toList.length := hcase.length_eq.symm
  have hprefix : ¬ mark.toList <+: (other ++ s).toList := by
    rw [String.toList_append]
    rintro ⟨rest, hrest⟩
    exact hne (String.toList_inj.1 (List.append_inj_left hrest hlength).symm)
  have hupper : other.toList.map Char.toUpper = "POLICY:".toList := map_toUpper_eq_iff.2 hcase
  cases hother : other.toList with
  | nil =>
    rw [hother] at hupper
    exact absurd hupper (by simp)
  | cons c rest =>
    rw [hother] at hupper
    have hunmarked : unmarked (other ++ s).toList = c :: (rest ++ s.toList) := by
      rw [unmarked_eq_self hprefix, String.toList_append, hother, List.cons_append]
    exact parse_eq_error_of_toUpper hunmarked (List.cons.inj hupper).1

/-! ### Writing -/

theorem parse_text (id : PolicyId) : parse id.text = .ok id := by
  refine parse_eq_ok_iff.2 (.inr ⟨id.uuid.text.toList, ?_, ?_⟩)
  · rw [text, String.toList_append]
  · exact Uuid.ofText?_eq_some_iff.1 id.uuid.ofText?_text

theorem eq_of_text_eq {id id' : PolicyId} (h : id.text = id'.text) : id = id' := by
  have hid := parse_text id
  rw [h, parse_text] at hid
  exact (Except.ok.inj hid).symm

theorem line_encode (id : PolicyId) : (encode id).line = "\"" ++ id.uuid.text ++ "\"" := by
  have hline : (encode id).line = .ofList (Json.quote id.uuid.text) := rfl
  rw [hline, Json.quote, Uuid.flatMap_escaped_text, ← String.toList_inj]
  simp

/-- What becomes of a text in which an identifier is expected. -/
structure IsReadBySpelling (s : String) : Prop where
  /-- An identifier is read from its spellings, -/
  ok_iff : ∀ id, parse s = .ok id ↔ id.IsSpelledBy s.toList
  /-- and when it is shown and read again, it is the same. -/
  again : ∀ id, parse s = .ok id → parse id.text = .ok id
  /-- Everything else is refused, and the refusal tells the whole text. -/
  error_iff : ∀ refusal, parse s = .error refusal ↔
    (∀ id : PolicyId, ¬ id.IsSpelledBy s.toList) ∧ refusal = .malformedPolicyId s
  message : ∀ explanation, (Refusal.malformedPolicyId s).message explanation =
    "validation error: invalid policy id " ++ quoted s ++ ": " ++ explanation
  /-- Two marks are too many, whatever stands behind them, -/
  doubled : parse (mark ++ mark ++ s) = .error (.malformedPolicyId (mark ++ mark ++ s))
  /-- and in another case the mark is none. -/
  otherCase : ∀ other : String, List.Forall₂ SameButCase other.toList mark.toList → other ≠ mark →
    parse (other ++ s) = .error (.malformedPolicyId (other ++ s))

/-- How an identifier is shown and written. -/
structure IsWrittenInGroups (id : PolicyId) : Prop where
  /-- The digits are in lower case and stand in groups, behind the mark where people see them. -/
  digits : Uuid.InGroups (id.uuid.digits.toList.map hexDigit) id.uuid.text.toList
  text : id.text = mark ++ id.uuid.text
  /-- What is shown is read back, and no other identifier is shown in the same way. -/
  parse : parse id.text = .ok id
  unlike : ∀ id', id.text = PolicyId.text id' → id = id'
  /-- In JSON there is no mark, and what is written there is read back. -/
  form : encode id = .str id.uuid.text
  line : (encode id).line = "\"" ++ id.uuid.text ++ "\""
  restored : IsRestored id

theorem isReadBySpelling (s : String) : IsReadBySpelling s where
  ok_iff _ := parse_eq_ok_iff
  again id _ := parse_text id
  error_iff _ := parse_eq_error_iff
  message _ := rfl
  doubled := parse_mark_mark s
  otherCase _ hcase hne := parse_otherCase hcase hne s

theorem isWrittenInGroups (id : PolicyId) : IsWrittenInGroups id where
  digits := id.uuid.inGroups_text
  text := rfl
  parse := parse_text id
  unlike _ := eq_of_text_eq
  form := rfl
  line := line_encode id
  restored := by
    have hback : ReadsBack 0 id := ReadsAs.policyId id
    exact hback.restored (Nat.zero_le _)

/-- Every text is read by its spelling, and every identifier is written in a spelling of its own. -/
theorem spellings_are_read : (∀ s, IsReadBySpelling s) ∧ ∀ id, IsWrittenInGroups id := by
  refine ⟨?_, ?_⟩
  · intro s
    exact isReadBySpelling s
  · intro id
    exact isWrittenInGroups id

/-- The kind and the digits may be given in capitals, but not the mark. -/
theorem capitals_are_read :
    let id : PolicyId := ⟨⟨#v[10, 1, 10, 2, 10, 3, 10, 4, 11, 1, 11, 2, 12, 1, 12, 2,
      13, 1, 13, 2, 13, 3, 13, 4, 13, 5, 13, 6, 13, 7, 13, 8]⟩⟩
    let s := "policy:URN:uuid:A1A2A3A4-b1b2-C1C2-d1d2-D3D4D5D6D7D8"
    parse s = .ok id ∧ id.IsSpelledBy s.toList ∧
      id.text = "policy:a1a2a3a4-b1b2-c1c2-d1d2-d3d4d5d6d7d8" ∧ parse id.text = .ok id ∧
      List.Forall₂ SameButCase "Policy:".toList mark.toList ∧ "Policy:" ≠ mark ∧
      parse ("Policy:" ++ s) = .error (.malformedPolicyId ("Policy:" ++ s)) := by
  intro id s
  have hs : parse s = .ok id := by decide +kernel
  have htext : id.text = "policy:a1a2a3a4-b1b2-c1c2-d1d2-d3d4d5d6d7d8" := by decide +kernel
  have hcase : List.Forall₂ SameButCase "Policy:".toList mark.toList :=
    map_toUpper_eq_iff.1 (by decide)
  have hne : "Policy:" ≠ mark := by decide
  have hread := spellings_are_read.1 s
  exact ⟨hs, (hread.ok_iff id).1 hs, htext, hread.again id hs, hcase, hne,
    hread.otherCase "Policy:" hcase hne⟩

end PolicyId

end PolicyBook
