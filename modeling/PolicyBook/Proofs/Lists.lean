import Mathlib.Data.List.Forall2
import Mathlib.Data.List.Nodup
/-!
Lists and options.

Readers take one piece after another off a text, and give up when a piece does not fit; members
stand in a list under their names. Here is what is needed of the lists themselves.

* **`bind_of_eq`** — one more reading that succeeds;
* **`mapM_eq_some_iff`** — items that are read one by one;
* **`lookup_eq_some_iff_mem`** — under names that do not repeat, every member is found.
-/
namespace PolicyBook

variable {α β ε : Type}

theorem bind_of_eq {x : Option α} {a : α} (h : x = some a) (f : α → Option β) :
    (x >>= f) = f a := by
  rw [h]
  rfl

theorem eq_ok_of_toOption {x : Except ε α} {a : α} (h : x.toOption = some a) : x = .ok a := by
  cases x with
  | error e => exact absurd h (by simp [Except.toOption])
  | ok b => rw [Option.some_inj.1 h]

/-! ### Item by item -/

theorem mapM_eq_some_iff {f : α → Option β} {xs : List α} {ys : List β} :
    xs.mapM f = some ys ↔ List.Forall₂ (fun x y => f x = some y) xs ys := by
  induction xs generalizing ys with
  | nil => simp [eq_comm]
  | cons x xs ih =>
    rw [List.mapM_cons, List.forall₂_cons_left_iff, Option.bind_eq_bind, Option.bind_eq_some_iff]
    constructor
    · rintro ⟨y, hy, hrest⟩
      obtain ⟨ys', hys, heq⟩ := Option.bind_eq_some_iff.1 hrest
      exact ⟨y, ys', hy, ih.1 hys, (Option.some_inj.1 heq).symm⟩
    · rintro ⟨y, ys', hy, hys, rfl⟩
      refine ⟨y, hy, ?_⟩
      rw [ih.2 hys]
      rfl

theorem exists_of_mapM {f : α → Option β} {xs : List α} {ys : List β} (h : xs.mapM f = some ys)
    {y : β} (hy : y ∈ ys) : ∃ x ∈ xs, f x = some y := by
  obtain ⟨hlength, heach⟩ := List.forall₂_iff_get.1 (mapM_eq_some_iff.1 h)
  obtain ⟨i, rfl⟩ := List.mem_iff_get.1 hy
  have hi : i < xs.length := by
    rw [hlength]
    exact i.2
  exact ⟨_, List.get_mem xs ⟨i, hi⟩, heach i hi i.2⟩

theorem eq_of_map_eq {f : α → β} {xs ys : List α}
    (hf : ∀ x ∈ xs, ∀ y ∈ ys, f x = f y → x = y) (h : xs.map f = ys.map f) : xs = ys := by
  induction xs generalizing ys with
  | nil =>
    rw [List.map_nil, eq_comm, List.map_eq_nil_iff] at h
    exact h.symm
  | cons x xs ih =>
    cases ys with
    | nil => exact absurd h (by simp)
    | cons y ys =>
      rw [List.map_cons, List.map_cons] at h
      obtain ⟨hfirst, hrest⟩ := List.cons.inj h
      rw [hf x List.mem_cons_self y List.mem_cons_self hfirst,
        ih (fun a ha b hb => hf a (List.mem_cons_of_mem _ ha) b (List.mem_cons_of_mem _ hb)) hrest]

theorem eq_range'_of_suffix {xs : List Nat} {first n : Nat} (h : xs <:+ List.range' first n) :
    xs.length ≤ n ∧ xs = List.range' (first + n - xs.length) xs.length := by
  obtain ⟨lost, hlost⟩ := h
  obtain ⟨k, hk, -, rfl⟩ := List.range'_eq_append_iff.1 hlost.symm
  rw [List.length_range']
  refine ⟨Nat.sub_le _ _, ?_⟩
  congr 1
  omega

/-! ### Members under names -/

theorem lookup_member (name : String) (x : α) (members : List (String × α)) (other : String) :
    ((name, x) :: members).lookup other =
      if other = name then some x else members.lookup other := by
  by_cases h : other = name
  · simp [h]
  · rw [List.lookup_cons, beq_false_of_ne h, if_neg h]

theorem map_snd_find? (name : String) (members : List (String × α)) :
    (members.find? fun m => m.1 == name).map Prod.snd = members.lookup name := by
  induction members with
  | nil => rfl
  | cons m rest ih =>
    rw [lookup_member, List.find?_cons]
    by_cases h : name = m.1
    · simp [h]
    · rw [beq_false_of_ne (Ne.symm h), if_neg h]
      exact ih

theorem lookup_map_snd (f : α → β) (members : List (String × α)) (name : String) :
    (members.map fun m => (m.1, f m.2)).lookup name = (members.lookup name).map f := by
  induction members with
  | nil => rfl
  | cons m rest ih =>
    rw [List.map_cons, lookup_member, lookup_member, ih]
    split <;> rfl

/-- Where no name is repeated, every member is what stands under its name. -/
theorem lookup_eq_some_iff_mem {members : List (String × α)} (h : (members.map Prod.fst).Nodup)
    {name : String} {x : α} : members.lookup name = some x ↔ (name, x) ∈ members := by
  induction members with
  | nil => simp
  | cons m rest ih =>
    obtain ⟨hnot, hrest⟩ := List.nodup_cons.1 h
    obtain ⟨first, y⟩ := m
    rw [lookup_member, List.mem_cons]
    by_cases hname : name = first
    · subst hname
      -- nothing behind the first member has its name
      have hno : (name, x) ∉ rest := fun hmem => hnot (List.mem_map.2 ⟨_, hmem, rfl⟩)
      simp [hno, eq_comm]
    · rw [if_neg hname, ih hrest]
      simp [hname]

theorem lookup_eq_of_perm {xs ys : List (String × α)} (h : xs.Perm ys)
    (hnodup : (ys.map Prod.fst).Nodup) (name : String) : xs.lookup name = ys.lookup name := by
  refine Option.ext fun x => ?_
  rw [lookup_eq_some_iff_mem ((h.map Prod.fst).nodup_iff.2 hnodup), lookup_eq_some_iff_mem hnodup]
  exact h.mem_iff

theorem filter_name_length_le {members : List (String × α)} (h : (members.map Prod.fst).Nodup)
    (name : String) : (members.filter fun m => m.1 == name).length ≤ 1 := by
  have hcount : (members.filter fun m => m.1 == name).length =
      (members.map Prod.fst).count name := by
    rw [List.count, List.countP_map, List.countP_eq_length_filter]
    rfl
  rw [hcount]
  exact List.nodup_iff_count_le_one.1 h name

theorem map_find?_name {members : List (String × α)} (h : (members.map Prod.fst).Nodup) :
    (members.map Prod.fst).map (fun name => (members.find? fun m => m.1 == name).map Prod.snd) =
      members.map fun m => some m.2 := by
  rw [List.map_map]
  refine List.map_congr_left fun m hm => ?_
  exact (map_snd_find? m.1 members).trans ((lookup_eq_some_iff_mem h).2 hm)

end PolicyBook
