import PolicyBook.Proofs.Json.Alike
import PolicyBook.Proofs.Json.Reading
/-!
Canonical texts lose nothing.

Neither the normal form nor the order of written names changes a number or adds a level, so what is
known about compact texts carries over to canonical ones: they are read back as long as lists and
objects do not nest too deep, and what comes back means the same.

* **`Json.ofText?_canonicalText`** — what comes back, and when nothing does;
* **`Json.canonical_isLossless`** — every value whose numbers are integers of sixty-four bits has a
  canonical text, shares its bytes with the values that mean the same and with no other, and comes
  back from its text.
-/
namespace PolicyBook.Json

/-! ### Numbers -/

theorem IsExact.normal {v : Json} (h : v.IsExact) : v.normal.IsExact := by
  induction h with
  | null => exact .null
  | bool b => exact .bool b
  | int n least greatest => exact .int n least greatest
  | str s => exact .str s
  | arr items _ ih =>
    rw [Json.normal, normalItems_eq_map]
    refine .arr _ fun v hv => ?_
    obtain ⟨item, hitem, rfl⟩ := List.mem_map.1 hv
    exact ih item hitem
  | obj members _ ih =>
    rw [Json.normal]
    refine .obj _ fun m hm => ?_
    rcases mem_normalMembers hm with hnone | ⟨v, hv, hvalue⟩
    · exact absurd hnone List.not_mem_nil
    · rw [hvalue]
      exact ih _ hv

theorem IsExact.inWrittenOrder {v : Json} (h : v.IsExact) : v.inWrittenOrder.IsExact := by
  induction h with
  | null => exact .null
  | bool b => exact .bool b
  | int n least greatest => exact .int n least greatest
  | str s => exact .str s
  | arr items _ ih =>
    rw [Json.inWrittenOrder, itemsInWrittenOrder_eq_map]
    refine .arr _ fun v hv => ?_
    obtain ⟨item, hitem, rfl⟩ := List.mem_map.1 hv
    exact ih item hitem
  | obj members _ ih =>
    rw [Json.inWrittenOrder, membersInWrittenOrder_eq_map]
    refine .obj _ fun m hm => ?_
    obtain ⟨m', hm', rfl⟩ := List.mem_map.1 ((ordered_perm _ _).mem_iff.1 hm)
    exact ih m' hm'

/-! ### Levels -/

theorem depthOfItems_le_iff {items : List Json} {d : Nat} :
    depthOfItems items ≤ d ↔ ∀ v ∈ items, v.depth ≤ d := by
  induction items with
  | nil => simp [depthOfItems]
  | cons v rest ih => rw [depthOfItems, Nat.max_le, ih, List.forall_mem_cons]

theorem depthOfMembers_le_iff {members : List (String × Json)} {d : Nat} :
    depthOfMembers members ≤ d ↔ ∀ m ∈ members, m.2.depth ≤ d := by
  induction members with
  | nil => simp [depthOfMembers]
  | cons m rest ih => rw [depthOfMembers, Nat.max_le, ih, List.forall_mem_cons]

theorem depth_normal_le (v : Json) : v.normal.depth ≤ v.depth := by
  induction v using Json.induction with
  | null | bool | int | float | str => exact Nat.le_refl _
  | arr items ih =>
    rw [normal, normalItems_eq_map, depth, depth, Nat.add_le_add_iff_right, depthOfItems_le_iff]
    intro v hv
    obtain ⟨item, hitem, rfl⟩ := List.mem_map.1 hv
    exact Nat.le_trans (ih item hitem) (depthOfItems_le_iff.1 (Nat.le_refl _) item hitem)
  | obj members ih =>
    rw [normal, depth, depth, Nat.add_le_add_iff_right, depthOfMembers_le_iff]
    intro m hm
    rcases mem_normalMembers hm with hnone | ⟨v, hv, hvalue⟩
    · exact absurd hnone List.not_mem_nil
    · rw [hvalue]
      exact Nat.le_trans (ih _ hv) (depthOfMembers_le_iff.1 (Nat.le_refl _) _ hv)

theorem depth_inWrittenOrder_le_iff (v : Json) (d : Nat) :
    v.inWrittenOrder.depth ≤ d ↔ v.depth ≤ d := by
  induction v using Json.induction generalizing d with
  | null | bool | int | float | str => exact Iff.rfl
  | arr items ih =>
    rw [inWrittenOrder, itemsInWrittenOrder_eq_map, depth, depth]
    cases d with
    | zero => simp
    | succ d =>
      rw [Nat.add_le_add_iff_right, Nat.add_le_add_iff_right, depthOfItems_le_iff,
        depthOfItems_le_iff, List.forall_mem_map]
      exact forall₂_congr fun v hv => ih v hv d
  | obj members ih =>
    rw [inWrittenOrder, membersInWrittenOrder_eq_map, depth, depth]
    cases d with
    | zero => simp
    | succ d =>
      rw [Nat.add_le_add_iff_right, Nat.add_le_add_iff_right, depthOfMembers_le_iff,
        depthOfMembers_le_iff]
      simp only [(ordered_perm _ _).mem_iff, List.forall_mem_map]
      exact forall₂_congr fun m hm => ih m hm d

/-! ### There and back -/

/-- A canonical text is read back as the normal form with its members as they were written, unless
lists and objects nest too deep in it. -/
theorem ofText?_canonicalText {v : Json} (h : v.IsExact) :
    ofText? (String.ofList v.canonicalText) =
      if v.normal.depth ≤ maxNesting then some v.normal.inWrittenOrder else none := by
  rw [ofText?, String.toList_ofList, canonicalText, ofChars?_compact h.normal.inWrittenOrder]
  simp only [depth_inWrittenOrder_le_iff]

theorem inWrittenOrder_normal_alike (v : Json) : Alike v.normal.inWrittenOrder v :=
  alike_iff.2 (normal_inWrittenOrder (isNormal_normal v))

theorem Alike.canonicalText_eq {v w : Json} (h : Alike v w) :
    v.canonicalText = w.canonicalText := by
  rw [canonicalText, canonicalText, h.normal_eq]

def canonicalBytes (v : Json) : List UInt8 := (String.ofList v.canonicalText).toUTF8.toList

/-- The canonical text of a value says everything about it. -/
structure IsLossless (v : Json) : Prop where
  /-- The value is not refused. -/
  accepted : v.canonical = .ok v.canonicalText
  /-- Its bytes are those of the values that mean the same, and of no other value. -/
  bytes_eq_iff : ∀ w : Json, w.IsExact → (w.canonicalBytes = v.canonicalBytes ↔ Alike w v)
  /-- Its text is read back as a value that means the same, which has the same text again. -/
  read_back : v.depth ≤ maxNesting → ∃ w, ofText? (String.ofList v.canonicalText) = some w ∧
    Alike w v ∧ w.canonical = .ok v.canonicalText
  /-- Its text is not read back as anything else where the reader gives up. -/
  refused : maxNesting < v.normal.depth → ofText? (String.ofList v.canonicalText) = none

/-- Canonical texts lose nothing, as long as every number is an integer of sixty-four bits. -/
theorem canonical_isLossless {v : Json} (h : v.IsExact) : v.IsLossless where
  accepted := canonical_eq_ok h.firstFloat?_eq
  bytes_eq_iff w hw := by
    constructor
    · intro hbytes
      exact alike_iff.2
        (canonicalText_injective hw.firstFloat?_eq h.firstFloat?_eq (utf8_injective hbytes))
    · intro halike
      rw [canonicalBytes, canonicalBytes, halike.canonicalText_eq]
  read_back hdepth := by
    have halike := inWrittenOrder_normal_alike v
    refine ⟨v.normal.inWrittenOrder, ?_, halike, ?_⟩
    · rw [ofText?_canonicalText h, if_pos (Nat.le_trans (depth_normal_le v) hdepth)]
    · rw [canonical_eq_ok h.normal.inWrittenOrder.firstFloat?_eq, halike.canonicalText_eq]
  refused hdepth := by
    rw [ofText?_canonicalText h, if_neg (Nat.not_le.2 hdepth)]

/-- An object whose members change places when they are written. -/
def misplaced : Json :=
  .obj [("b\"", .arr [.int (-9223372036854775808), .null]), ("b", .obj [])]

theorem misplaced_isLossless : misplaced.IsExact ∧ misplaced.IsLossless ∧
    misplaced.depth ≤ maxNesting ∧ misplaced.canonicalText =
      "\x7b\"b\":\x7b\x7d,\"b\\\"\":[-9223372036854775808,null]\x7d".toList := by
  have hlist : (Json.arr [.int (-9223372036854775808), .null]).IsExact := by
    refine .arr _ fun item hitem => ?_
    rcases List.mem_cons.1 hitem with rfl | hitem
    · exact .int _ (by decide) (by decide)
    · obtain rfl := List.mem_singleton.1 hitem
      exact .null
  have hexact : misplaced.IsExact := by
    refine .obj _ fun m hm => ?_
    rcases List.mem_cons.1 hm with rfl | hm
    · exact hlist
    · obtain rfl := List.mem_singleton.1 hm
      exact .obj _ fun _ h => absurd h List.not_mem_nil
  exact ⟨hexact, canonical_isLossless hexact, by decide, by decide⟩

end PolicyBook.Json
