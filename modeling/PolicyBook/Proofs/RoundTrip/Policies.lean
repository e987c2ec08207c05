import PolicyBook.Proofs.RoundTrip.Reading
import PolicyBook.Rollup
/-!
Policies and portfolios are read back.

A record has its transitions inside. Counts stand under the names of states, of which some may be
missing, and are entered again one by one.

* **`ReadsAs.policyRecord`** — records;
* **`ReadsAs.counts`**, **`ReadsAs.dashboard`**, **`ReadsAs.holding`** — figures.
-/
namespace PolicyBook

open Policy

/-! ### Numbers of sixty-four bits -/

structure Policy.Record.IsWordSized (r : Record) : Prop where
  premium : r.premium ≤ Text.maxWord
  version : r.version ≤ Text.maxWord

structure Dashboard.IsWordSized (d : Dashboard) : Prop where
  total : d.total ≤ Text.maxWord
  counts : ∀ s, ∀ n ∈ d.byState.get s, n ≤ Text.maxWord
  active : d.active ≤ Text.maxWord
  activePremium : d.activePremium ≤ Text.maxWord

structure Holding.IsWordSized (h : Holding) : Prop where
  active : h.active ≤ Text.maxWord
  activePremium : h.activePremium ≤ Text.maxWord

namespace ReadsAs

variable {levels : Nat}

/-! ### Records -/

theorem transition (t : Transition) : ReadsBack (levels + 1) t := by
  have hsource : ReadsBack levels t.source := state _
  have htarget : ReadsBack levels t.target := state _
  have haction : ReadsBack levels t.action := action _
  have hactor : ReadsBack levels t.actor := role _
  have hreason : ReadsAs levels _ _ t.reason := option _
  have hmadeAt : ReadsBack levels t.madeAt := instant _
  refine record (by simp) ?_ fun r part hfields hpart => ?_
  · simp only [List.forall_mem_cons]
    exact ⟨hsource.fits, htarget.fits, haction.fits, hactor.fits, hreason.fits, hmadeAt.fits,
      by simp⟩
  · simp only [List.forall_mem_cons] at hpart
    obtain ⟨rsource, rtarget, raction, ractor, rreason, rmadeAt, -⟩ := hpart
    refine (bind_of_eq hfields _).trans ?_
    simp [hsource.required rsource, htarget.required rtarget, haction.required raction,
      hactor.required ractor, hreason.back _ rreason, hmadeAt.required rmadeAt]

theorem policyRecord {r : Record} (h : r.IsWordSized) : ReadsBack (levels + 3) r := by
  have hid : ReadsBack (levels + 2) r.id := policyId _
  have hholder : ReadsBack (levels + 2) r.holder := holderId _
  have hpremium : ReadsBack (levels + 2) r.premium := nat h.premium
  have hstate : ReadsBack (levels + 2) r.state := state _
  have hversion : ReadsBack (levels + 2) r.version := nat h.version
  have hcreatedAt : ReadsBack (levels + 2) r.createdAt := instant _
  have hupdatedAt : ReadsBack (levels + 2) r.updatedAt := instant _
  have htransitions : ReadsBack (levels + 2) r.transitions := list fun t _ => transition t
  refine record (by simp) ?_ fun r' part hfields hpart => ?_
  · simp only [List.forall_mem_cons]
    exact ⟨hid.fits, hholder.fits, hpremium.fits, hstate.fits, hversion.fits, hcreatedAt.fits,
      hupdatedAt.fits, htransitions.fits, by simp⟩
  · simp only [List.forall_mem_cons] at hpart
    obtain ⟨rid, rholder, rpremium, rstate, rversion, rcreatedAt, rupdatedAt, rtransitions, -⟩ :=
      hpart
    refine (bind_of_eq hfields _).trans ?_
    simp [hid.required rid, hholder.required rholder, hpremium.required rpremium,
      hstate.required rstate, hversion.required rversion, hcreatedAt.required rcreatedAt,
      hupdatedAt.required rupdatedAt, htransitions.required rtransitions]

/-! ### Figures -/

/-- Counts are entered again one by one, from the members that were written for some states. -/
theorem exists_foldlM {counts : StateCounts} (acc : StateCounts) {states : List State}
    {rs : List (String × Json.Raw)} (hsmall : ∀ s, ∀ n ∈ counts.get s, n ≤ Text.maxWord)
    (hrs : rs.map Json.Raw.named =
      (states.filterMap fun s => (counts.get s).map fun n => (s.name, encode n)).map
        fun m => (m.1, some m.2)) :
    ∃ result, rs.foldlM (fun (counts : StateCounts) (name, r) => do
        let state ← State.ofName? name
        let n ← read? r
        return counts.set state n) acc = some result ∧
      ∀ s, result.get s = if s ∈ states then (counts.get s).or (acc.get s) else acc.get s := by
  induction states generalizing acc rs with
  | nil =>
    obtain rfl := List.map_eq_nil_iff.1 hrs
    exact ⟨acc, rfl, fun s => rfl⟩
  | cons first rest ih =>
    cases hcount : counts.get first with
    | none =>
      -- a state without a count is not written
      rw [List.filterMap_cons_none (by rw [hcount]; rfl)] at hrs
      obtain ⟨result, hfold, hget⟩ := ih acc hrs
      refine ⟨result, hfold, fun s => ?_⟩
      rw [hget s]
      by_cases hs : s = first
      · subst hs
        simp [hcount]
      · simp [hs]
    | some n =>
      rw [List.filterMap_cons_some (by rw [hcount]; rfl)] at hrs
      obtain ⟨m, rs, rfl, hm, hrest⟩ := List.map_eq_cons_iff.1 hrs
      obtain ⟨name, r⟩ := m
      obtain ⟨rfl, hvalue⟩ := Prod.mk.inj hm
      obtain ⟨result, hfold, hget⟩ := ih (acc.set first n) hrest
      have hback : ReadsBack 0 n := nat (hsmall first n (by rw [hcount]; rfl))
      have hread : read? r = some n := hback.back r hvalue
      refine ⟨result, ?_, fun s => ?_⟩
      · rw [List.foldlM_cons]
        simp only [State.ofName?_name, hread, Option.bind_eq_bind, Option.bind_some]
        exact hfold
      · rw [hget s, StateCounts.get_set]
        by_cases hs : s = first
        · subst hs
          simp [hcount]
        · simp [hs]

theorem counts {counts : StateCounts} (h : ∀ s, ∀ n ∈ counts.get s, n ≤ Text.maxWord) :
    ReadsBack (levels + 1) counts := by
  refine of_members ?_ fun r hr => ?_
  · intro m hm
    obtain ⟨s, -, hs⟩ := List.mem_filterMap.1 hm
    obtain ⟨n, hn, rfl⟩ := Option.map_eq_some_iff.1 hs
    exact (nat (h s n hn)).fits
  · obtain ⟨rs, hmembers, hvalues⟩ := Json.Raw.members?_of_value hr
    obtain ⟨result, hfold, hget⟩ := exists_foldlM (.ofFn fun _ => none) h hvalues
    refine (bind_of_eq hmembers _).trans (hfold.trans (congrArg some ?_))
    refine StateCounts.ext fun s => ?_
    rw [hget s, if_pos (State.mem_all s), StateCounts.get_ofFn, Option.or_none]

theorem dashboard {d : Dashboard} (h : d.IsWordSized) : ReadsBack (levels + 2) d := by
  have htotal : ReadsBack (levels + 1) d.total := nat h.total
  have hbyState : ReadsBack (levels + 1) d.byState := counts h.counts
  have hactive : ReadsBack (levels + 1) d.active := nat h.active
  have hpremium : ReadsBack (levels + 1) d.activePremium := nat h.activePremium
  refine record (by simp) ?_ fun r part hfields hpart => ?_
  · simp only [List.forall_mem_cons]
    exact ⟨htotal.fits, hbyState.fits, hactive.fits, hpremium.fits, by simp⟩
  · simp only [List.forall_mem_cons] at hpart
    obtain ⟨rtotal, rbyState, ractive, rpremium, -⟩ := hpart
    refine (bind_of_eq hfields _).trans ?_
    simp [htotal.required rtotal, hbyState.required rbyState, hactive.required ractive,
      hpremium.required rpremium]

theorem holding {s : Holding} (h : s.IsWordSized) : ReadsBack (levels + 1) s := by
  have hholder : ReadsBack levels s.holder := holderId _
  have hactive : ReadsBack levels s.active := nat h.active
  have hpremium : ReadsBack levels s.activePremium := nat h.activePremium
  refine record (by simp) ?_ fun r part hfields hpart => ?_
  · simp only [List.forall_mem_cons]
    exact ⟨hholder.fits, hactive.fits, hpremium.fits, by simp⟩
  · simp only [List.forall_mem_cons] at hpart
    obtain ⟨rholder, ractive, rpremium, -⟩ := hpart
    refine (bind_of_eq hfields _).trans ?_
    simp [hholder.required rholder, hactive.required ractive, hpremium.required rpremium]

end ReadsAs

end PolicyBook
