import PolicyBook.Proofs.Forms
import PolicyBook.Proofs.Json.Compact
/-!
The parts of a text whose value is known.

A text that has been taken apart may hold its value in one piece or in parts. As long as the whole
has a value the two look the same, and so a reader finds the same parts in both:

* **`Json.Raw.eq_value_of_scalar`** — what is neither a list nor an object has no parts;
* **`Json.Raw.items?_of_value`**, **`Json.Raw.members?_of_value`** — items and members have the
  values that the items and the members of the whole are;
* **`Json.Raw.fields?_of_value`** — every field of a record is found under its name.
-/
namespace PolicyBook.Json.Raw

theorem eq_value_of_scalar {r : Raw} {v : Json} (h : r.value? = some v) (hlist : v.kind ≠ 5)
    (hobject : v.kind ≠ 6) : r = .value v := by
  cases r with
  | value w =>
    obtain rfl : w = v := Option.some_inj.1 h
    rfl
  | unreadable => exact absurd h (by simp [value?])
  | list items =>
    obtain ⟨vs, -, rfl⟩ := Option.map_eq_some_iff.1 h
    exact absurd rfl hlist
  | object members =>
    obtain ⟨ms, -, rfl⟩ := Option.map_eq_some_iff.1 h
    exact absurd rfl hobject

theorem map_value?_of_itemValues? {rs : List Raw} {vs : List Json}
    (h : itemValues? rs = some vs) : rs.map value? = vs.map some := by
  induction rs generalizing vs with
  | nil =>
    obtain rfl : [] = vs := Option.some_inj.1 h
    rfl
  | cons r rest ih =>
    obtain ⟨v, hv, h⟩ := Option.bind_eq_some_iff.1 h
    obtain ⟨vs, hvs, h⟩ := Option.bind_eq_some_iff.1 h
    obtain rfl := Option.some_inj.1 h
    rw [List.map_cons, List.map_cons, hv, ih hvs]

/-- The items of a list have the values that the items of its value are. -/
theorem items?_of_value {r : Raw} {vs : List Json} (h : r.value? = some (.arr vs)) :
    ∃ rs, r.items? = some rs ∧ rs.map value? = vs.map some := by
  cases r with
  | value w =>
    obtain rfl : w = .arr vs := Option.some_inj.1 h
    refine ⟨vs.map value, rfl, ?_⟩
    rw [List.map_map]
    rfl
  | unreadable => exact absurd h (by simp [value?])
  | list items =>
    obtain ⟨ws, hws, hvalue⟩ := Option.map_eq_some_iff.1 h
    obtain rfl := Json.arr.inj hvalue
    exact ⟨items, rfl, map_value?_of_itemValues? hws⟩
  | object members =>
    obtain ⟨ms, -, hvalue⟩ := Option.map_eq_some_iff.1 h
    exact absurd hvalue Json.noConfusion

def named (m : String × Raw) : String × Option Json := (m.1, m.2.value?)

theorem map_named_of_memberValues? {rs : List (String × Raw)} {ms : List (String × Json)}
    (h : memberValues? rs = some ms) : rs.map named = ms.map fun m => (m.1, some m.2) := by
  induction rs generalizing ms with
  | nil =>
    obtain rfl : [] = ms := Option.some_inj.1 h
    rfl
  | cons r rest ih =>
    obtain ⟨v, hv, h⟩ := Option.bind_eq_some_iff.1 h
    obtain ⟨ms, hms, h⟩ := Option.bind_eq_some_iff.1 h
    obtain rfl := Option.some_inj.1 h
    rw [List.map_cons, List.map_cons, named, hv, ih hms]

theorem members?_of_value {r : Raw} {ms : List (String × Json)} (h : r.value? = some (.obj ms)) :
    ∃ rs, r.members? = some rs ∧ rs.map named = ms.map fun m => (m.1, some m.2) := by
  cases r with
  | value w =>
    obtain rfl : w = .obj ms := Option.some_inj.1 h
    refine ⟨ms.map fun m => (m.1, value m.2), rfl, ?_⟩
    rw [List.map_map]
    rfl
  | unreadable => exact absurd h (by simp [value?])
  | list items =>
    obtain ⟨vs, -, hvalue⟩ := Option.map_eq_some_iff.1 h
    exact absurd hvalue Json.noConfusion
  | object members =>
    obtain ⟨ws, hws, hvalue⟩ := Option.map_eq_some_iff.1 h
    obtain rfl := Json.obj.inj hvalue
    exact ⟨members, rfl, map_named_of_memberValues? hws⟩

theorem fields?_of_members? {r : Raw} {rs : List (String × Raw)} (h : r.members? = some rs)
    (names : List String) : r.fields? names = fieldsOf? names rs := by
  have hitems : r.items? = none := by
    unfold members? at h
    split at h
    · rfl
    · rfl
    · exact absurd h (by simp)
  rw [fields?, hitems, h]

/-- Every field of a record is found under its name, in whatever parts the record has come. -/
theorem fields?_of_value {r : Raw} {ms : List (String × Json)} (hnames : (ms.map Prod.fst).Nodup)
    (h : r.value? = some (.obj ms)) :
    ∃ part : String → Raw, r.fields? (ms.map Prod.fst) = some (ms.map fun m => some (part m.1)) ∧
      ∀ m ∈ ms, (part m.1).value? = some m.2 := by
  obtain ⟨rs, hmembers, hvalues⟩ := members?_of_value h
  have hfst : rs.map Prod.fst = ms.map Prod.fst := by
    have := congrArg (List.map Prod.fst) hvalues
    rw [List.map_map, List.map_map] at this
    exact this
  have hdistinct : (rs.map Prod.fst).Nodup := by
    rw [hfst]
    exact hnames
  -- under the name of a member stands that member, since no name is used twice
  let part (name : String) : Raw :=
    ((rs.find? fun m => m.1 == name).map Prod.snd).getD .unreadable
  have hpart (m : String × Raw) (hm : m ∈ rs) :
      (rs.find? fun m' => m'.1 == m.1).map Prod.snd = some m.2 :=
    List.map_inj_left.1 (List.map_map.symm.trans (map_find?_name hdistinct)) m hm
  refine ⟨part, ?_, fun m hm => ?_⟩
  · rw [fields?_of_members? hmembers, fieldsOf?, if_pos, ← hfst, map_find?_name hdistinct]
    · have hsome : rs.map (fun m => some m.2) =
          (rs.map Prod.fst).map fun name => some (part name) := by
        rw [List.map_map]
        refine List.map_congr_left fun m hm => ?_
        simp only [Function.comp_apply, part, hpart m hm, Option.getD_some]
      rw [hsome, hfst, List.map_map]
      rfl
    · rw [List.all_eq_true]
      intro name _
      exact decide_eq_true (filter_name_length_le hdistinct name)
  · have hmem : (m.1, some m.2) ∈ rs.map named := by
      rw [hvalues]
      exact List.mem_map.2 ⟨m, hm, rfl⟩
    obtain ⟨m', hm', heq⟩ := List.mem_map.1 hmem
    obtain ⟨hname, hvalue⟩ := Prod.mk.inj heq
    show (((rs.find? fun m' => m'.1 == m.1).map Prod.snd).getD .unreadable).value? = some m.2
    rw [← hname, hpart m' hm', Option.getD_some]
    exact hvalue

end PolicyBook.Json.Raw
