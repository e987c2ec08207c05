import PolicyBook.Json
import PolicyBook.Proofs.Lists
/-!
Values in normal form.

What two values mean is told by their normal forms. In a normal form the names of every object
increase, and what stands under a name is the normal form of what stood there last:

* **`Json.induction`** — the principle by which statements about all values are proved;
* **`Json.isNormal_normal`** — names increase in a normal form, at every depth;
* **`Json.lookup_of_normal_eq`** — objects of one meaning have members of one meaning under every
  name;
* **`Json.firstFloat?_normal`** — without floating-point numbers the normal form has none.
-/
namespace PolicyBook.Json

/-- A statement holds of all values if it holds of what is no list or object, of a list whenever it
holds of its items, and of an object whenever it holds of the values of its members. -/
theorem induction {P : Json → Prop} (null : P .null) (bool : ∀ b, P (.bool b))
    (int : ∀ n, P (.int n)) (float : ∀ x, P (.float x)) (str : ∀ s, P (.str s))
    (arr : ∀ items, (∀ v ∈ items, P v) → P (.arr items))
    (obj : ∀ members, (∀ m ∈ members, P m.2) → P (.obj members)) (v : Json) : P v :=
  @Json.rec P (fun items => ∀ v ∈ items, P v) (fun members => ∀ m ∈ members, P m.2)
    (fun m => P m.2) null bool int float str arr obj
    (fun _ h => absurd h List.not_mem_nil)
    (fun _ _ hv hrest => List.forall_mem_cons.2 ⟨hv, hrest⟩)
    (fun _ h => absurd h List.not_mem_nil)
    (fun _ _ hm hrest => List.forall_mem_cons.2 ⟨hm, hrest⟩)
    (fun _ _ hv => hv) v

theorem normalItems_eq_map (items : List Json) : normalItems items = items.map normal := by
  induction items with
  | nil => rfl
  | cons v rest ih => rw [normalItems, ih, List.map_cons]

/-! ### Members under increasing names -/

def Increasing {α : Type} (members : List (String × α)) : Prop :=
  members.Pairwise fun a b => a.1.toList < b.1.toList

theorem mem_insertMember {α : Type} {name : String} {x : α} {members : List (String × α)}
    {m : String × α} (h : m ∈ insertMember name x members) : m = (name, x) ∨ m ∈ members := by
  induction members with
  | nil => exact .inl (List.mem_singleton.1 h)
  | cons other rest ih =>
    rw [insertMember] at h
    split at h
    · rcases List.mem_cons.1 h with rfl | hrest
      · exact .inl rfl
      · exact .inr (List.mem_cons_of_mem _ hrest)
    · split at h
      · exact List.mem_cons.1 h
      · rcases List.mem_cons.1 h with rfl | hrest
        · exact .inr List.mem_cons_self
        · exact (ih hrest).imp id (List.mem_cons_of_mem _)

theorem Increasing.insertMember {α : Type} {members : List (String × α)} (h : Increasing members)
    (name : String) (x : α) : Increasing (insertMember name x members) := by
  induction members with
  | nil => exact List.pairwise_singleton _ _
  | cons other rest ih =>
    obtain ⟨hfirst, hrest⟩ := List.pairwise_cons.1 h
    rw [Json.insertMember]
    split
    · next heq =>
      subst heq
      exact List.pairwise_cons.2 ⟨hfirst, hrest⟩
    · next hne =>
      split
      · next hlt =>
        refine List.pairwise_cons.2 ⟨fun m hm => ?_, h⟩
        rcases List.mem_cons.1 hm with rfl | hm
        · exact hlt
        · exact List.lt_trans hlt (hfirst m hm)
      · next hnot =>
        refine List.pairwise_cons.2 ⟨fun m hm => ?_, ih hrest⟩
        rcases mem_insertMember hm with rfl | hm
        · -- neither equal nor smaller, so the new name is larger
          refine Decidable.byContradiction fun hge => hne ?_
          exact String.toList_inj.1 (Std.Trichotomous.trichotomous _ _ hnot hge)
        · exact hfirst m hm

theorem lookup_insertMember {α : Type} (name : String) (x : α) (members : List (String × α))
    (other : String) :
    (insertMember name x members).lookup other =
      if other = name then some x else members.lookup other := by
  induction members with
  | nil => exact lookup_member name x [] other
  | cons first rest ih =>
    obtain ⟨first, y⟩ := first
    -- the new member takes the place of the first one, goes in front of it or goes behind it
    rw [insertMember, lookup_member first]
    split
    · next heq =>
      subst heq
      rw [lookup_member]
      by_cases h : other = name <;> simp [h]
    · next hne =>
      split
      · rw [lookup_member, lookup_member]
      · rw [lookup_member, ih]
        by_cases h : other = first
        · subst h
          simp [Ne.symm hne]
        · simp [h]

/-- What stands under a name after members were entered: the last of them, or what stood there. -/
theorem lookup_normalMembers (entered members : List (String × Json)) (name : String) :
    (normalMembers entered members).lookup name =
      ((members.reverse.lookup name).map normal).or (entered.lookup name) := by
  induction members generalizing entered with
  | nil => rfl
  | cons first rest ih =>
    obtain ⟨first, v⟩ := first
    rw [normalMembers, ih, lookup_insertMember, List.reverse_cons, List.lookup_append,
      lookup_member]
    by_cases h : name = first
    · subst h
      cases rest.reverse.lookup name <;> simp
    · cases rest.reverse.lookup name <;> simp [h]

theorem lookup_of_normal_eq {members members' : List (String × Json)}
    (h : (Json.obj members).normal = (Json.obj members').normal) (name : String) :
    (members.reverse.lookup name).map normal = (members'.reverse.lookup name).map normal := by
  rw [normal, normal] at h
  have hlookup := congrArg (List.lookup name) (Json.obj.inj h)
  rwa [lookup_normalMembers, lookup_normalMembers, List.lookup_nil, Option.or_none,
    Option.or_none] at hlookup

/-! ### Normal forms -/

/-- The names of every object increase, at every depth. -/
inductive IsNormal : Json → Prop where
  | null : IsNormal .null
  | bool (b : Bool) : IsNormal (.bool b)
  | int (n : Int) : IsNormal (.int n)
  | float (x : Double) : IsNormal (.float x)
  | str (s : String) : IsNormal (.str s)
  | arr (items : List Json) (h : ∀ v ∈ items, IsNormal v) : IsNormal (.arr items)
  | obj (members : List (String × Json)) (increasing : Increasing members)
      (h : ∀ m ∈ members, IsNormal m.2) : IsNormal (.obj members)

theorem increasing_normalMembers {entered : List (String × Json)} (h : Increasing entered)
    (members : List (String × Json)) : Increasing (normalMembers entered members) := by
  induction members generalizing entered with
  | nil => exact h
  | cons first rest ih =>
    obtain ⟨name, v⟩ := first
    exact ih (h.insertMember name v.normal)

/-- A member that was entered is one that had been there, or the normal form of a new one. -/
theorem mem_normalMembers {entered members : List (String × Json)} {m : String × Json}
    (h : m ∈ normalMembers entered members) :
    m ∈ entered ∨ ∃ v, (m.1, v) ∈ members ∧ m.2 = v.normal := by
  induction members generalizing entered with
  | nil => exact .inl h
  | cons first rest ih =>
    obtain ⟨name, v⟩ := first
    rcases ih h with hentered | ⟨v', hv', hm⟩
    · rcases mem_insertMember hentered with rfl | hold
      · exact .inr ⟨v, List.mem_cons_self, rfl⟩
      · exact .inl hold
    · exact .inr ⟨v', List.mem_cons_of_mem _ hv', hm⟩

theorem isNormal_normal (v : Json) : v.normal.IsNormal := by
  induction v using Json.induction with
  | null => exact .null
  | bool b => exact .bool b
  | int n => exact .int n
  | float x => exact .float x
  | str s => exact .str s
  | arr items ih =>
    rw [normal, normalItems_eq_map]
    refine .arr _ fun v hv => ?_
    obtain ⟨item, hitem, rfl⟩ := List.mem_map.1 hv
    exact ih item hitem
  | obj members ih =>
    rw [normal]
    refine .obj _ (increasing_normalMembers List.Pairwise.nil members) fun m hm => ?_
    rcases mem_normalMembers hm with hnone | ⟨v, hv, hvalue⟩
    · exact absurd hnone List.not_mem_nil
    · rw [hvalue]
      exact ih _ hv

/-! ### Floating-point numbers -/

theorem firstFloatOfItems?_eq_none_iff {items : List Json} :
    firstFloatOfItems? items = none ↔ ∀ v ∈ items, v.firstFloat? = none := by
  induction items with
  | nil => simp [firstFloatOfItems?]
  | cons v rest ih => simp [firstFloatOfItems?, ih]

theorem firstFloatOfMembers?_eq_none_iff {members : List (String × Json)} :
    firstFloatOfMembers? members = none ↔ ∀ m ∈ members, m.2.firstFloat? = none := by
  induction members with
  | nil => simp [firstFloatOfMembers?]
  | cons m rest ih => simp [firstFloatOfMembers?, ih]

theorem firstFloat?_normal {v : Json} (h : v.firstFloat? = none) : v.normal.firstFloat? = none := by
  induction v using Json.induction with
  | null | bool | int | str => rfl
  | float x => exact absurd h (by simp [firstFloat?])
  | arr items ih =>
    rw [firstFloat?, firstFloatOfItems?_eq_none_iff] at h
    rw [normal, normalItems_eq_map, firstFloat?, firstFloatOfItems?_eq_none_iff]
    intro v hv
    obtain ⟨item, hitem, rfl⟩ := List.mem_map.1 hv
    exact ih item hitem (h item hitem)
  | obj members ih =>
    rw [firstFloat?, firstFloatOfMembers?_eq_none_iff] at h
    rw [normal, firstFloat?, firstFloatOfMembers?_eq_none_iff]
    intro m hm
    rcases mem_normalMembers hm with hnone | ⟨v, hv, hvalue⟩
    · exact absurd hnone List.not_mem_nil
    · rw [hvalue]
      exact ih _ hv (h _ hv)

end PolicyBook.Json
