import PolicyBook.Proofs.Json.Canonical
/-!
When two values mean the same.

Objects are maps: what counts is which names they have and what stands under each of them, and of a
repeated name the last member counts. `Json.Alike` says this name by name, at every depth, without
putting anything in order.

* **`Json.alike_iff`** — values are alike exactly when they have one normal form;
* **`Json.normal_inWrittenOrder`** — the order in which members are written is lost again in the
  normal form.
-/
namespace PolicyBook.Json

/-- Two values mean the same: lists item by item, objects name by name. -/
inductive Alike : Json → Json → Prop where
  | null : Alike .null .null
  | bool (b : Bool) : Alike (.bool b) (.bool b)
  | int (n : Int) : Alike (.int n) (.int n)
  | float (x : Double) : Alike (.float x) (.float x)
  | str (s : String) : Alike (.str s) (.str s)
  | arr {items items' : List Json} (length : items.length = items'.length)
      (each : ∀ (i : Nat) (v w : Json), items[i]? = some v → items'[i]? = some w → Alike v w) :
      Alike (.arr items) (.arr items')
  | obj {members members' : List (String × Json)}
      (names : ∀ name, ((Json.obj members).member? name).isSome =
        ((Json.obj members').member? name).isSome)
      (each : ∀ name v w, (Json.obj members).member? name = some v →
        (Json.obj members').member? name = some w → Alike v w) :
      Alike (.obj members) (.obj members')

/-! ### Looking members up -/

section

variable {α : Type}

theorem member?_obj (members : List (String × Json)) (name : String) :
    (Json.obj members).member? name = members.reverse.lookup name :=
  map_snd_find? name members.reverse

theorem Increasing.nodup {members : List (String × α)} (h : Increasing members) :
    (members.map Prod.fst).Nodup := by
  refine List.pairwise_map.2 (h.imp fun hlt heq => ?_)
  rw [heq] at hlt
  exact List.lt_irrefl _ hlt

theorem Increasing.ext {xs ys : List (String × α)} (hx : Increasing xs) (hy : Increasing ys)
    (h : ∀ name, xs.lookup name = ys.lookup name) : xs = ys := by
  have hdistinct {members : List (String × α)} (hnodup : (members.map Prod.fst).Nodup) :
      members.Nodup :=
    (List.pairwise_map.1 hnodup).imp fun hne heq => hne (congrArg Prod.fst heq)
  refine Increasing.eq_of_perm hx hy
    ((List.perm_ext_iff_of_nodup (hdistinct hx.nodup) (hdistinct hy.nodup)).2 ?_)
  rintro ⟨name, x⟩
  rw [← lookup_eq_some_iff_mem hx.nodup, ← lookup_eq_some_iff_mem hy.nodup, h]

end

/-! ### Normal forms -/

theorem normal_obj_eq {members members' : List (String × Json)}
    (h : ∀ name, (members.reverse.lookup name).map normal =
      (members'.reverse.lookup name).map normal) :
    (Json.obj members).normal = (Json.obj members').normal := by
  rw [normal, normal]
  refine congrArg Json.obj (Increasing.ext (increasing_normalMembers List.Pairwise.nil members)
    (increasing_normalMembers List.Pairwise.nil members') fun name => ?_)
  rw [lookup_normalMembers, lookup_normalMembers, h]

theorem Alike.normal_eq {v w : Json} (h : Alike v w) : v.normal = w.normal := by
  induction h with
  | null | bool | int | float | str => rfl
  | @arr items items' hlength _ ih =>
    rw [normal, normal, normalItems_eq_map, normalItems_eq_map]
    refine congrArg Json.arr (List.ext_getElem? fun i => ?_)
    rw [List.getElem?_map, List.getElem?_map]
    rcases Nat.lt_or_ge i items.length with hi | hi
    · have hi' : i < items'.length := by omega
      rw [List.getElem?_eq_getElem hi, List.getElem?_eq_getElem hi']
      exact congrArg some (ih i _ _ (List.getElem?_eq_getElem hi) (List.getElem?_eq_getElem hi'))
    · rw [List.getElem?_eq_none hi, List.getElem?_eq_none (by omega)]
  | @obj members members' hnames _ ih =>
    refine normal_obj_eq fun name => ?_
    have hname := hnames name
    have heach := ih name
    rw [member?_obj, member?_obj] at hname heach
    cases hv : members.reverse.lookup name with
    | none =>
      have hw : members'.reverse.lookup name = none := by
        rw [hv] at hname
        exact Option.isNone_iff_eq_none.1 (Option.isSome_eq_false_iff.1 hname.symm)
      rw [hw]
    | some v =>
      rw [hv] at hname
      obtain ⟨w, hw⟩ := Option.isSome_iff_exists.1 hname.symm
      rw [hw]
      exact congrArg some (heach v w hv hw)

theorem alike_of_normal_eq {v w : Json} (h : v.normal = w.normal) : Alike v w := by
  induction v using Json.induction generalizing w with
  | null =>
    cases w with
    | null => exact .null
    | bool | int | float | str | arr | obj => simp [normal] at h
  | bool b =>
    cases w with
    | bool b' =>
      obtain rfl := Json.bool.inj h
      exact .bool b
    | null | int | float | str | arr | obj => simp [normal] at h
  | int n =>
    cases w with
    | int n' =>
      obtain rfl := Json.int.inj h
      exact .int n
    | null | bool | float | str | arr | obj => simp [normal] at h
  | float x =>
    cases w with
    | float x' =>
      obtain rfl := Json.float.inj h
      exact .float x
    | null | bool | int | str | arr | obj => simp [normal] at h
  | str s =>
    cases w with
    | str s' =>
      obtain rfl := Json.str.inj h
      exact .str s
    | null | bool | int | float | arr | obj => simp [normal] at h
  | arr items ih =>
    cases w with
    | arr items' =>
      rw [normal, normal, normalItems_eq_map, normalItems_eq_map] at h
      have hitems := Json.arr.inj h
      refine .arr (by simpa using congrArg List.length hitems) fun i v w hv hw => ?_
      have hi := congrArg (·[i]?) hitems
      simp only [List.getElem?_map, hv, hw, Option.map_some] at hi
      exact ih v (List.mem_of_getElem? hv) (Option.some_inj.1 hi)
    | null | bool | int | float | str | obj => simp [normal] at h
  | obj members ih =>
    cases w with
    | obj members' =>
      have hlookup := lookup_of_normal_eq h
      refine .obj (fun name => ?_) fun name v w hv hw => ?_
      · rw [member?_obj, member?_obj]
        simpa using congrArg Option.isSome (hlookup name)
      · rw [member?_obj] at hv hw
        have hname := hlookup name
        rw [hv, hw] at hname
        have hmem : (name, v) ∈ members := by
          obtain ⟨front, back, hsplit, -⟩ := List.lookup_eq_some_iff.1 hv
          exact List.mem_reverse.1 (hsplit ▸ List.mem_append_right _ List.mem_cons_self)
        exact ih _ hmem (Option.some_inj.1 hname)
    | null | bool | int | float | str | arr => simp [normal] at h

theorem alike_iff {v w : Json} : Alike v w ↔ v.normal = w.normal :=
  ⟨Alike.normal_eq, alike_of_normal_eq⟩

theorem normal_inWrittenOrder {v : Json} (h : v.IsNormal) : v.inWrittenOrder.normal = v := by
  induction h with
  | null | bool | int | float | str => rfl
  | arr items _ ih =>
    rw [inWrittenOrder, itemsInWrittenOrder_eq_map, normal, normalItems_eq_map, List.map_map]
    refine congrArg Json.arr ((List.map_congr_left fun v hv => ?_).trans (List.map_id items))
    exact ih v hv
  | obj members hincreasing _ ih =>
    rw [inWrittenOrder, membersInWrittenOrder_eq_map, normal]
    refine congrArg Json.obj (Increasing.ext (increasing_normalMembers List.Pairwise.nil _)
      hincreasing fun name => ?_)
    -- however the members are arranged, under every name stands what stood there
    have hperm := (List.reverse_perm _).trans
      (ordered_perm writtenLe (members.map fun m => (m.1, m.2.inWrittenOrder)))
    rw [lookup_normalMembers, List.lookup_nil, Option.or_none,
      lookup_eq_of_perm hperm (hincreasing.map_snd inWrittenOrder).nodup, lookup_map_snd]
    cases hv : members.lookup name with
    | none => rfl
    | some v => exact congrArg some (ih _ ((lookup_eq_some_iff_mem hincreasing.nodup).1 hv))

end PolicyBook.Json
