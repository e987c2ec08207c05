import PolicyBook.Proofs.Lists
import PolicyBook.Rollup
/-!
Reading back what was written as JSON.

A record is written as an object with its fields in order, and so it is read:

* **`Json.Raw.fields?_obj`** — the fields of an object whose members are the fields;
* **`StateCounts.eq_of_decode?`**, **`Dashboard.eq_of_decode?`** — figures that are read back are
  those that were written.
-/
namespace PolicyBook

open Policy

namespace Json.Raw

theorem fields?_obj (members : List (String × Json)) (h : (members.map Prod.fst).Nodup) :
    fields? (members.map Prod.fst) (.value (.obj members)) =
      some (members.map fun m => some (.value m.2)) := by
  have hnames : (members.map fun m => (m.1, value m.2)).map Prod.fst = members.map Prod.fst := by
    rw [List.map_map]
    rfl
  have hdistinct : ((members.map fun m => (m.1, value m.2)).map Prod.fst).Nodup := by
    rw [hnames]
    exact h
  show fieldsOf? (members.map Prod.fst) (members.map fun m => (m.1, value m.2)) = _
  rw [fieldsOf?, if_pos, ← hnames, map_find?_name hdistinct, List.map_map]
  · rfl
  · rw [List.all_eq_true]
    intro name _
    exact decide_eq_true (filter_name_length_le hdistinct name)

end Json.Raw

/-! ### Figures -/

theorem eq_of_decode?_nat {n m : Nat} (h : decode? (encode n) = some m) : m = n := by
  have hint : (if (0 : Int) ≤ n ∧ (n : Int) ≤ Text.maxWord then some (n : Int).toNat else none) =
      some m := h
  split at hint
  · exact (Option.some_inj.1 hint).symm
  · exact absurd hint (by simp)

namespace StateCounts

theorem ext {c d : StateCounts} (h : ∀ s, c.get s = d.get s) : c = d := by
  rw [← ofFn_get c, ← ofFn_get d, funext h]

theorem get_set (counts : StateCounts) (state : State) (n : Nat) (s : State) :
    (counts.set state n).get s = if s = state then some n else counts.get s :=
  get_ofFn _ s

theorem get_of_foldlM {counts acc result : StateCounts} {states : List State}
    (h : ((states.filterMap fun s => (counts.get s).map fun n => (s.name, encode n)).map
        fun m => (m.1, Json.Raw.value m.2)).foldlM (fun (counts : StateCounts) (name, r) => do
          let state ← State.ofName? name
          let n ← read? r
          return counts.set state n) acc = some result) (s : State) :
    result.get s = if s ∈ states then (counts.get s).or (acc.get s) else acc.get s := by
  -- a state without a count is not written, and a state with one is set once it is read
  induction states generalizing acc with
  | nil =>
    obtain rfl : acc = result := Option.some_inj.1 h
    rfl
  | cons first rest ih =>
    cases hcount : counts.get first with
    | none =>
      rw [List.filterMap_cons_none (by rw [hcount]; rfl)] at h
      rw [ih h]
      by_cases hs : s = first
      · subst hs
        simp [hcount]
      · simp [hs]
    | some n =>
      rw [List.filterMap_cons_some (by rw [hcount]; rfl)] at h
      simp only [List.map_cons, List.foldlM_cons, State.ofName?_name, Option.bind_eq_bind,
        Option.bind_some] at h
      obtain ⟨next, hnext, hrest⟩ := Option.bind_eq_some_iff.1 h
      obtain ⟨m, hm, hset⟩ := Option.bind_eq_some_iff.1 hnext
      obtain rfl := eq_of_decode?_nat hm
      obtain rfl := Option.some_inj.1 hset
      rw [ih hrest, get_set]
      by_cases hs : s = first
      · subst hs
        simp [hcount]
      · simp [hs]

theorem eq_of_decode? {counts result : StateCounts} (h : decode? (encode counts) = some result) :
    result = counts := by
  refine ext fun s => ?_
  rw [get_of_foldlM h s, if_pos (State.mem_all s), get_ofFn]
  cases counts.get s <;> rfl

end StateCounts

theorem Dashboard.eq_of_decode? {d result : Dashboard} (h : decode? (encode d) = some result) :
    result = d := by
  have hfields := Json.Raw.fields?_obj [
    ("total_policies", encode d.total), ("by_state", encode d.byState),
    ("active_policies", encode d.active), ("total_active_premium_minor", encode d.activePremium)]
    (show ["total_policies", "by_state", "active_policies", "total_active_premium_minor"].Nodup by
      decide)
  simp only [List.map_cons, List.map_nil] at hfields
  simp only [decode?, read?, encode] at h hfields
  rw [hfields] at h
  simp only [Json.required?, Option.bind_eq_bind, Option.bind_some] at h
  obtain ⟨total, htotal, h⟩ := Option.bind_eq_some_iff.1 h
  obtain ⟨byState, hbyState, h⟩ := Option.bind_eq_some_iff.1 h
  obtain ⟨active, hactive, h⟩ := Option.bind_eq_some_iff.1 h
  obtain ⟨premium, hpremium, h⟩ := Option.bind_eq_some_iff.1 h
  obtain rfl := Option.some_inj.1 h
  rw [eq_of_decode?_nat htotal, StateCounts.eq_of_decode? hbyState, eq_of_decode?_nat hactive,
    eq_of_decode?_nat hpremium]

end PolicyBook
