import PolicyBook.Json.Canonical
import PolicyBook.Proofs.Json.Compact
/-!
Canonical texts tell meanings apart.

Putting the members of a normal form in the order of their written names only rearranges them, and
increasing names allow one arrangement:

* **`Json.inWrittenOrder_injective`** — normal forms with one written order are equal;
* **`Json.canonicalText_injective`** — values with one canonical text have one meaning;
* **`Json.canonical_eq_ok`** — a value without floating-point numbers has a canonical text.
-/
namespace PolicyBook.Json

theorem itemsInWrittenOrder_eq_map (items : List Json) :
    itemsInWrittenOrder items = items.map inWrittenOrder := by
  induction items with
  | nil => rfl
  | cons v rest ih => rw [itemsInWrittenOrder, ih, List.map_cons]

theorem membersInWrittenOrder_eq_map (members : List (String × Json)) :
    membersInWrittenOrder members = members.map fun m => (m.1, m.2.inWrittenOrder) := by
  induction members with
  | nil => rfl
  | cons m rest ih => rw [membersInWrittenOrder, ih, List.map_cons]

theorem firstFloat?_inWrittenOrder {v : Json} (h : v.firstFloat? = none) :
    v.inWrittenOrder.firstFloat? = none := by
  induction v using Json.induction with
  | null | bool | int | str => rfl
  | float x => exact absurd h (by simp [firstFloat?])
  | arr items ih =>
    rw [firstFloat?, firstFloatOfItems?_eq_none_iff] at h
    rw [inWrittenOrder, itemsInWrittenOrder_eq_map, firstFloat?, firstFloatOfItems?_eq_none_iff]
    intro v hv
    obtain ⟨item, hitem, rfl⟩ := List.mem_map.1 hv
    exact ih item hitem (h item hitem)
  | obj members ih =>
    rw [firstFloat?, firstFloatOfMembers?_eq_none_iff] at h
    rw [inWrittenOrder, membersInWrittenOrder_eq_map, firstFloat?,
      firstFloatOfMembers?_eq_none_iff]
    intro m hm
    obtain ⟨m', hm', rfl⟩ := List.mem_map.1 ((ordered_perm _ _).mem_iff.1 hm)
    exact ih m' hm' (h m' hm')

theorem Increasing.eq_of_perm {α : Type} {xs ys : List (String × α)} (hx : Increasing xs)
    (hy : Increasing ys) (h : xs.Perm ys) : xs = ys :=
  List.Perm.eq_of_pairwise (fun _ _ _ _ hab hba => absurd hba (List.lt_asymm hab)) hx hy h

theorem Increasing.map_snd {α β : Type} {xs : List (String × α)} (h : Increasing xs) (f : α → β) :
    Increasing (xs.map fun m => (m.1, f m.2)) :=
  List.pairwise_map.2 h

theorem inWrittenOrder_injective {v w : Json} (hv : v.IsNormal) (hw : w.IsNormal)
    (h : v.inWrittenOrder = w.inWrittenOrder) : v = w := by
  induction v using Json.induction generalizing w with
  | null | bool | int | float | str =>
    cases w with
    | null | bool | int | float | str => exact h
    | arr | obj => simp [inWrittenOrder] at h
  | arr items ih =>
    cases w with
    | arr items' =>
      rw [inWrittenOrder, inWrittenOrder, itemsInWrittenOrder_eq_map,
        itemsInWrittenOrder_eq_map] at h
      cases hv with | arr _ hv =>
      cases hw with | arr _ hw =>
      rw [eq_of_map_eq (fun v hmem v' hmem' => ih v hmem (hv v hmem) (hw v' hmem'))
        (Json.arr.inj h)]
    | null | bool | int | float | str | obj => simp [inWrittenOrder] at h
  | obj members ih =>
    cases w with
    | obj members' =>
      rw [inWrittenOrder, inWrittenOrder, membersInWrittenOrder_eq_map,
        membersInWrittenOrder_eq_map] at h
      cases hv with | obj _ hincreasing hv =>
      cases hw with | obj _ hincreasing' hw =>
      -- sorting by written names rearranges, and the names themselves increase
      have hperm : (members.map fun m => (m.1, m.2.inWrittenOrder)).Perm
          (members'.map fun m => (m.1, m.2.inWrittenOrder)) := by
        have hordered := Json.obj.inj h
        exact ((ordered_perm writtenLe _).symm.trans (.of_eq hordered)).trans (ordered_perm _ _)
      have hmap := Increasing.eq_of_perm (hincreasing.map_snd inWrittenOrder)
        (hincreasing'.map_snd inWrittenOrder) hperm
      have hmember (m : String × Json) (hmem : m ∈ members) (m' : String × Json)
          (hmem' : m' ∈ members') (heq : (m.1, m.2.inWrittenOrder) = (m'.1, m'.2.inWrittenOrder)) :
          m = m' :=
        Prod.ext (Prod.mk.inj heq).1 (ih m hmem (hv m hmem) (hw m' hmem') (Prod.mk.inj heq).2)
      rw [eq_of_map_eq hmember hmap]
    | null | bool | int | float | str | arr => simp [inWrittenOrder] at h

/-- Values without floating-point numbers that have one canonical text have one meaning. -/
theorem canonicalText_injective {v w : Json} (hv : v.firstFloat? = none)
    (hw : w.firstFloat? = none) (h : v.canonicalText = w.canonicalText) : v.normal = w.normal :=
  inWrittenOrder_injective (isNormal_normal v) (isNormal_normal w)
    (compact_injective (firstFloat?_inWrittenOrder (firstFloat?_normal hv))
      (firstFloat?_inWrittenOrder (firstFloat?_normal hw)) h)

theorem canonical_eq_ok {v : Json} (h : v.firstFloat? = none) :
    v.canonical = .ok v.canonicalText := by
  rw [canonical, firstFloat?_normal h]

/-! ### Bytes -/

theorem bytes_loop_eq (bytes : ByteArray) (i : Nat) (r : List UInt8) :
    ByteArray.toList.loop bytes i r = r.reverse ++ bytes.data.toList.drop i := by
  -- bytes are collected from a place on, the newest in front
  fun_induction ByteArray.toList.loop bytes i r with
  | case1 i r hlt ih =>
    have hi : i < bytes.data.toList.length := by simpa using hlt
    have hbyte : bytes.get! i = bytes.data.toList[i] := by
      simp only [ByteArray.get!, Array.getElem_toList]
      exact getElem!_pos bytes.data i hlt
    rw [ih, List.drop_eq_getElem_cons hi, hbyte, List.reverse_cons, List.append_assoc]
    rfl
  | case2 i r hge =>
    have hle : bytes.data.toList.length ≤ i := by simpa using hge
    rw [List.drop_eq_nil_of_le hle, List.append_nil]

theorem bytes_toList_eq (bytes : ByteArray) : bytes.toList = bytes.data.toList := by
  rw [ByteArray.toList, bytes_loop_eq]
  rfl

theorem utf8_injective {cs ds : List Char}
    (h : (String.ofList cs).toUTF8.toList = (String.ofList ds).toUTF8.toList) : cs = ds := by
  rw [bytes_toList_eq, bytes_toList_eq] at h
  have hbytes : (String.ofList cs).toByteArray = (String.ofList ds).toByteArray :=
    ByteArray.ext (Array.toList_inj.1 h)
  exact String.ofList_inj.1 (String.toByteArray_inj.1 hbytes)

end PolicyBook.Json
