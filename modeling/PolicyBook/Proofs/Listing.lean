import PolicyBook.Proofs.SharedStore
/-!
The list of a store.

What a store contains is told by what was asked of it: under every policy the record that was
accepted last. The list shows these records by age, and those of one age by identifier. No two of
them have one identifier, so there is only one such list, and it does not matter in which order the
records came in.

* **`Store.find?_after`** — the contents of a store are the records that were accepted last;
* **`Store.list_eq_of_find?`** — stores with the same contents have the same list;
* **`Store.list_of_save`** — a save that leaves the age alone exchanges one item of the list;
* **`Store.isListing`** — all of this for the list of every store that can be reached.
-/
namespace PolicyBook

namespace PolicyId

theorem lt_irrefl (a : PolicyId) : ¬ a < a :=
  List.lt_irrefl a.uuid.digits.toList

theorem lt_trans {a b c : PolicyId} (hab : a < b) (hbc : b < c) : a < c := by
  show a.uuid.digits.toList < c.uuid.digits.toList
  exact List.lt_trans hab hbc

theorem lt_trichotomy (a b : PolicyId) : a < b ∨ a = b ∨ b < a := by
  by_cases hlt : a < b
  · exact .inl hlt
  by_cases hgt : b < a
  · exact .inr (.inr hgt)
  have hdigits : a.uuid.digits.toList = b.uuid.digits.toList :=
    Std.Trichotomous.trichotomous (r := (· < ·)) _ _ hlt hgt
  obtain ⟨⟨digits⟩⟩ := a
  obtain ⟨⟨digits'⟩⟩ := b
  obtain rfl : digits = digits' := Vector.toList_inj.1 hdigits
  exact .inr (.inl rfl)

end PolicyId

namespace Policy

/-! ### The order of records -/

/-- One record is older than another, or as old and its identifier is smaller. -/
def Record.Before (a b : Record) : Prop :=
  a.createdAt < b.createdAt ∨ a.createdAt = b.createdAt ∧ a.id < b.id

namespace Record

variable {a b c : Record}

theorem Before.trans (hab : a.Before b) (hbc : b.Before c) : a.Before c := by
  rcases hab with hab | ⟨hab, hidab⟩
  · rcases hbc with hbc | ⟨hbc, -⟩
    · exact .inl (Instant.lt_trans hab hbc)
    · exact .inl (hbc ▸ hab)
  · rcases hbc with hbc | ⟨hbc, hidbc⟩
    · exact .inl (hab ▸ hbc)
    · exact .inr ⟨hab.trans hbc, PolicyId.lt_trans hidab hidbc⟩

theorem Before.irrefl (a : Record) : ¬ a.Before a := by
  rintro (hage | ⟨-, hid⟩)
  · exact Instant.lt_irrefl _ hage
  · exact PolicyId.lt_irrefl _ hid

theorem before_trichotomy (a b : Record) :
    a.Before b ∨ (a.createdAt = b.createdAt ∧ a.id = b.id) ∨ b.Before a := by
  rcases Instant.lt_trichotomy a.createdAt b.createdAt with hage | hage | hage
  · exact .inl (.inl hage)
  · rcases PolicyId.lt_trichotomy a.id b.id with hid | hid | hid
    · exact .inl (.inr ⟨hage, hid⟩)
    · exact .inr (.inl ⟨hage, hid⟩)
    · exact .inr (.inr (.inr ⟨hage.symm, hid⟩))
  · exact .inr (.inr (.inl hage))

theorem eq_of_pairwise_before {xs ys : List Record} (hx : xs.Pairwise Before)
    (hy : ys.Pairwise Before) (h : ∀ r, r ∈ xs ↔ r ∈ ys) : xs = ys := by
  have hnodup {zs : List Record} (hz : zs.Pairwise Before) : zs.Nodup := by
    refine hz.imp ?_
    rintro r _ hr rfl
    exact Before.irrefl r hr
  have hperm : xs.Perm ys := (List.perm_ext_iff_of_nodup (hnodup hx) (hnodup hy)).2 h
  refine List.Perm.eq_of_pairwise ?_ hx hy hperm
  intro r r' _ _ hr hr'
  exact absurd (hr.trans hr') (Before.irrefl r)

end Record

namespace Store

theorem listedLe_iff {a b : Record} : listedLe a b = true ↔ ¬ b.Before a := by
  rw [listedLe, Bool.or_eq_true, Bool.and_eq_true, decide_eq_true_eq, decide_eq_true_eq,
    Bool.not_eq_true', decide_eq_false_iff_not]
  constructor
  · rintro (hage | ⟨hage, hid⟩) hbefore
    · exact Record.Before.irrefl a (Record.Before.trans (.inl hage) hbefore)
    · rcases hbefore with hage' | ⟨-, hid'⟩
      · exact Instant.lt_irrefl _ (hage ▸ hage')
      · exact hid hid'
  · intro hnot
    rcases Record.before_trichotomy a b with (hage | ⟨hage, hid⟩) | ⟨hage, hid⟩ | hbefore
    · exact .inl hage
    · exact .inr ⟨hage, fun hid' => hnot (.inr ⟨hage.symm, hid'⟩)⟩
    · exact .inr ⟨hage, fun hid' => hnot (.inr ⟨hage.symm, hid'⟩)⟩
    · exact absurd hbefore hnot

theorem nodup_map_id_list (store : Store) : (store.list.map Record.id).Nodup :=
  ((ordered_perm listedLe store.records).map Record.id).nodup_iff.2 store.distinct

theorem pairwise_list (store : Store) : store.list.Pairwise Record.Before := by
  have hle : store.list.Pairwise (fun a b => listedLe a b = true) := by
    refine pairwise_ordered ?_ ?_ store.records
    · intro a b c hab hbc
      rw [listedLe_iff] at *
      intro hca
      -- wherever the record in the middle stands, it is on the wrong side of one of the others
      rcases Record.before_trichotomy b c with hbc' | ⟨hage, hid⟩ | hcb
      · exact hab (hbc'.trans hca)
      · refine hab ?_
        rcases hca with hca | ⟨hca, hidca⟩
        · exact .inl (hage ▸ hca)
        · exact .inr ⟨hage.trans hca, hid ▸ hidca⟩
      · exact hbc hcb
    · intro a b
      rw [listedLe_iff, listedLe_iff]
      by_cases hba : b.Before a
      · exact .inr fun hab => Record.Before.irrefl a (hab.trans hba)
      · exact .inl hba
  have hid : store.list.Pairwise (fun a b => a.id ≠ b.id) :=
    List.pairwise_map.1 store.nodup_map_id_list
  refine hle.imp₂ ?_ hid
  intro a b hab hne
  rcases Record.before_trichotomy a b with hbefore | ⟨-, heq⟩ | hbehind
  · exact hbefore
  · exact absurd heq hne
  · exact absurd hbehind (listedLe_iff.1 hab)

/-! ### Lists and contents -/

theorem list_eq_of_find? {store store' : Store} (h : ∀ id, store.find? id = store'.find? id) :
    store.list = store'.list := by
  refine Record.eq_of_pairwise_before store.pairwise_list store'.pairwise_list ?_
  intro r
  rw [mem_list_iff, mem_list_iff, h]

/-- A save that leaves the age alone exchanges one item of the list, and nothing moves. -/
theorem list_of_save {store next : Store} {r kept stored : Record}
    (h : store.save r = .ok (kept, next)) (hstored : store.find? r.id = some stored)
    (hage : kept.createdAt = stored.createdAt) :
    ∃ front back, store.list = front ++ stored :: back ∧ next.list = front ++ kept :: back := by
  have hid : stored.id = r.id := id_of_find? hstored
  have hkept : kept.id = r.id := by
    obtain ⟨-, -, -, rfl⟩ := save_eq_ok h
    rfl
  have hmem : stored ∈ store.list := mem_list_iff.2 (hid ▸ hstored)
  obtain ⟨front, back, hlist⟩ := List.append_of_mem hmem
  refine ⟨front, back, hlist, ?_⟩
  have hpairwise := store.pairwise_list
  rw [hlist, List.pairwise_append, List.pairwise_cons] at hpairwise
  obtain ⟨hfront, ⟨hstoredback, hback⟩, hcross⟩ := hpairwise
  -- in the order of the list the new record stands where the old one stood
  have hlike (x : Record) : (x.Before kept ↔ x.Before stored) ∧
      (kept.Before x ↔ stored.Before x) := by
    simp only [Record.Before, hage, hkept, hid, and_self]
  have hnext : (front ++ kept :: back).Pairwise Record.Before := by
    refine List.pairwise_append.2 ⟨hfront, List.pairwise_cons.2 ⟨?_, hback⟩, ?_⟩
    · intro x hx
      exact (hlike x).2.2 (hstoredback x hx)
    · intro x hx y hy
      rcases List.mem_cons.1 hy with rfl | hy
      · exact (hlike x).1.2 (hcross x hx stored List.mem_cons_self)
      · exact hcross x hx y (List.mem_cons_of_mem _ hy)
  -- and nothing else in the list is of its policy
  have hothers (x : Record) :
      x ∈ front ++ back ↔ store.find? x.id = some x ∧ x.id ≠ r.id := by
    have hids := store.nodup_map_id_list
    rw [hlist, List.map_append, List.map_cons, List.nodup_middle, ← List.map_append] at hids
    rw [← mem_list_iff, hlist, List.perm_middle.mem_iff, List.mem_cons]
    constructor
    · intro hx
      refine ⟨.inr hx, fun heq => (List.nodup_cons.1 hids).1 ?_⟩
      rw [hid, ← heq]
      exact List.mem_map_of_mem hx
    · rintro ⟨rfl | hx, hne⟩
      · exact absurd hid hne
      · exact hx
  refine Record.eq_of_pairwise_before next.pairwise_list hnext ?_
  intro x
  rw [mem_list_iff, find?_save h, List.perm_middle.mem_iff, List.mem_cons, hothers]
  by_cases hx : x.id = r.id
  · simp [hx, eq_comm]
  · have hne : x ≠ kept := by
      rintro rfl
      exact hx hkept
    simp [hx, hne]

/-! ### Contents and calls -/

/-- The record that a call brings into a store, if it is accepted. -/
def Call.accepted? (store : Store) : Call → Option Record
  | insert r =>
    match store.insert r with
    | .ok _ => some r
    | .error _ => none
  | save r =>
    match store.save r with
    | .ok (kept, _) => some kept
    | .error _ => none
  | load _ | list => none

def accepted (store : Store) : List Call → List Record
  | [] => []
  | call :: rest => (call.accepted? store).toList ++ accepted (call.on store).2 rest

def after (calls : List Call) : Store := calls.foldl (fun store call => (call.on store).2) empty

/-- An accepted record stands for its policy, and the other policies keep their records. -/
theorem find?_on (store : Store) (call : Call) (id : PolicyId) :
    (call.on store).2.find? id =
      ((call.accepted? store).toList.find? fun r => r.id = id).or (store.find? id) := by
  cases call with
  | insert r =>
    simp only [Call.on, Call.accepted?]
    cases h : store.insert r with
    | error fault => rfl
    | ok next =>
      rw [find?_insert h]
      by_cases hid : id = r.id
      · simp [hid]
      · simp [hid, Ne.symm hid]
  | save r =>
    simp only [Call.on, Call.accepted?]
    cases h : store.save r with
    | error fault => rfl
    | ok saved =>
      obtain ⟨kept, next⟩ := saved
      have hkept : kept.id = r.id := by
        obtain ⟨-, -, -, rfl⟩ := save_eq_ok h
        rfl
      rw [find?_save h]
      by_cases hid : id = r.id
      · simp [hid, hkept]
      · simp [hid, hkept, Ne.symm hid]
  | load _ => rfl
  | list => rfl

theorem find?_foldl_on (store : Store) (calls : List Call) (id : PolicyId) :
    (calls.foldl (fun store call => (call.on store).2) store).find? id =
      ((accepted store calls).reverse.find? fun r => r.id = id).or (store.find? id) := by
  induction calls generalizing store with
  | nil => rfl
  | cons call rest ih =>
    have hone : (call.accepted? store).toList.reverse = (call.accepted? store).toList := by
      cases call.accepted? store <;> rfl
    rw [List.foldl_cons, ih, find?_on, accepted, List.reverse_append, List.find?_append, hone,
      Option.or_assoc]

theorem find?_after (calls : List Call) (id : PolicyId) :
    (after calls).find? id = (accepted empty calls).reverse.find? fun r => r.id = id := by
  rw [after, find?_foldl_on, find?_empty, Option.or_none]

theorem after_concat (calls : List Call) (call : Call) :
    after (calls ++ [call]) = (call.on (after calls)).2 := by
  rw [after, List.foldl_append]
  rfl

/-- What the list of a store shows after calls. -/
structure IsListing (calls : List Call) (shown : List Record) : Prop where
  /-- Every policy is shown once, with its present record; that is the one that was accepted
  last. -/
  nodup : (shown.map Record.id).Nodup
  mem_iff_load : ∀ r, r ∈ shown ↔ (after calls).load r.id = .ok r
  mem_iff_last : ∀ r, r ∈ shown ↔
    ((accepted empty calls).reverse.find? fun other => other.id = r.id) = some r
  /-- Older records stand in front, of one age those with smaller identifiers. -/
  pairwise : shown.Pairwise fun a b =>
    a.createdAt < b.createdAt ∨ a.createdAt = b.createdAt ∧ a.id < b.id
  /-- Other calls that lead to the same contents lead to the same list. -/
  unordered : ∀ calls', (∀ id, (after calls').load id = (after calls).load id) →
    (after calls').list = shown
  /-- A save that leaves the age alone exchanges one item, and nothing moves. -/
  in_place : ∀ r kept, (Call.save r).accepted? (after calls) = some kept →
    ∃ stored, (after calls).load r.id = .ok stored ∧
      (kept.createdAt = stored.createdAt → ∃ front back, shown = front ++ stored :: back ∧
        (after (calls ++ [.save r])).list = front ++ kept :: back)

theorem find?_eq_of_load_eq {store store' : Store} {id : PolicyId}
    (h : store.load id = store'.load id) : store.find? id = store'.find? id := by
  refine Option.ext fun r => ?_
  rw [← load_eq_ok_iff, ← load_eq_ok_iff, h]

/-- Whatever was asked of a store, its list shows the contents, and in the one order there is. -/
theorem isListing (calls : List Call) : IsListing calls (after calls).list where
  nodup := nodup_map_id_list _
  mem_iff_load r := by rw [mem_list_iff, load_eq_ok_iff]
  mem_iff_last r := by rw [mem_list_iff, find?_after]
  pairwise := pairwise_list _
  unordered calls' h := list_eq_of_find? fun id => find?_eq_of_load_eq (h id)
  in_place r kept h := by
    simp only [Call.accepted?] at h
    split at h
    · next kept' next hsave =>
      obtain rfl := Option.some_inj.1 h
      obtain ⟨stored, hstored, -⟩ := save_eq_ok hsave
      refine ⟨stored, load_eq_ok_iff.2 hstored, fun hage => ?_⟩
      rw [after_concat]
      simp only [Call.on, hsave]
      exact list_of_save hsave hstored hage
    · exact absurd h (by simp)

end Store

end Policy

end PolicyBook
