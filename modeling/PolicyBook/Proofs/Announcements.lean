import PolicyBook.Proofs.History
import PolicyBook.Proofs.Interleaving.Effects
import PolicyBook.Proofs.Serializability
/-!
Every saved transition is published once.

A call publishes its transition two steps after it saved it, and meanwhile others save and publish
theirs. So the events of a policy may come out of order, and while a call stands between its save
and its publication one is missing; but none is published twice, none tells anything else than the
record does, and none is missing in the end.

What was published stands for a save, and a save is known by its policy and version:

* **`Run.version_lt_of_write`** — of two saves for one policy the later one has the larger version;
* **`Run.write_of_told`** — a published change was saved before, by the same call;
* **`Run.exists_write_of_version`** — every version of a record was saved;
* **`Office.published_isAccount`** — the published changes account for the stored records, in every
  run that begins with a new book.
-/
namespace PolicyBook

open Policy

variable {σ : Type} {run : Run σ}

namespace Run

/-! ### Versions and saves -/

/-- What is saved is the record as it stands, with one transition more. -/
theorem advance_of_write {t : Nat} {w : Write} {change : Transition} (hw : run.write? t = some w)
    (hchange : w.change = some change) :
    ∃ stored, (run.book t).store.find? w.record.id = some stored ∧
      w.record = stored.advance change := by
  obtain ⟨request, stored, -, hstored, -, -, hrecord⟩ := stored_of_write hw hchange
  have hpolicy : w.record.id = request.policy := by
    rw [hrecord]
    show stored.id = request.policy
    exact Store.id_of_find? hstored
  exact ⟨stored, by rw [hpolicy, hstored], hrecord⟩

theorem find?_of_write_lt {s t : Nat} {w : Write} (hw : run.write? s = some w) (hst : s < t) :
    (run.book t).store.find? w.record.id =
      some ((run.changes w.record.id (s + 1) t).foldl Record.advance w.record) := by
  refine find?_grows hst ?_
  rw [find?_of_write hw, if_pos rfl]

theorem version_lt_of_write {s t : Nat} {v w : Write} (hv : run.write? s = some v)
    (hw : run.write? t = some w) (hst : s < t) (hid : v.record.id = w.record.id)
    {change : Transition} (hchange : w.change = some change) :
    v.record.version < w.record.version := by
  have hfound := find?_of_write_lt hv hst
  obtain ⟨stored, hstored, hrecord⟩ := advance_of_write hw hchange
  rw [← hid, hfound, Option.some_inj] at hstored
  have hversion : w.record.version = stored.version + 1 := congrArg Record.version hrecord
  rw [hversion, ← hstored, Record.version_foldl_advance]
  omega

theorem write_unique {s t : Nat} {v w : Write} {change change' : Transition}
    (hv : run.write? s = some v) (hw : run.write? t = some w) (hchange : v.change = some change)
    (hchange' : w.change = some change') (hid : v.record.id = w.record.id)
    (hversion : v.record.version = w.record.version) : s = t := by
  rcases Nat.lt_trichotomy s t with hlt | heq | hlt
  · have := version_lt_of_write hv hw hlt hid hchange'
    omega
  · exact heq
  · have := version_lt_of_write hw hv hlt hid.symm hchange
    omega

/-- The record of a policy shows a transition that was saved for it, in the place of its version. -/
theorem transition_of_write (hstart : run.start.store = .empty) {s t : Nat} {w : Write}
    {change : Transition} (hw : run.write? s = some w) (hchange : w.change = some change)
    (hst : s < t) :
    ∃ r, (run.book t).store.find? w.record.id = some r ∧ r.id = w.record.id ∧
      r.holder = w.record.holder ∧ 1 ≤ w.record.version ∧ w.record.version ≤ r.version ∧
      r.transitions[w.record.version - 1]? = some change := by
  obtain ⟨stored, hstored, hrecord⟩ := advance_of_write hw hchange
  obtain ⟨hhistory, -⟩ := run.isHistory hstart s _ _ hstored
  have hversion : w.record.version = stored.transitions.length + 1 := by
    rw [hrecord, ← hhistory.version]
    rfl
  have htransitions : w.record.transitions = stored.transitions ++ [change] :=
    congrArg Record.transitions hrecord
  have hfound := find?_of_write_lt hw hst
  refine ⟨_, hfound, Store.id_of_find? hfound, (Record.kept_foldl_advance _ _).2.1, by omega, ?_,
    ?_⟩
  · rw [Record.version_foldl_advance]
    omega
  · rw [Record.transitions_foldl_advance, htransitions, hversion, Nat.add_sub_cancel,
      List.append_assoc, List.getElem?_append_right (Nat.le_refl _), Nat.sub_self]
    rfl

theorem exists_write_of_version (hstart : run.start.store = .empty) {t : Nat} :
    ∀ id r, (run.book t).store.find? id = some r → ∀ v, 1 ≤ v → v ≤ r.version →
      ∃ s < t, ∃ w change, run.write? s = some w ∧ w.change = some change ∧ w.record.id = id ∧
        w.record.version = v := by
  induction t with
  | zero =>
    intro id r hr
    have hempty : run.start.store.find? id = none := by rw [hstart, Store.find?_empty]
    exact absurd (hempty.symm.trans hr) (by simp)
  | succ t ih =>
    intro id r hr v hpos hle
    -- only a save for the policy itself adds a version, and it adds one
    cases hw : run.write? t with
    | none =>
      rw [store_of_no_write hw] at hr
      exact exists_lt_succ (ih id r hr v hpos hle)
    | some w =>
      rw [find?_of_write hw] at hr
      by_cases hid : id = w.record.id
      · rw [if_pos hid] at hr
        obtain rfl := Option.some_inj.1 hr
        cases hchange : w.change with
        | none =>
          rcases call_of_write hw with ⟨-, _, _, _, _, -, hdraft⟩ | ⟨_, _, hsome, -⟩
          · rw [hdraft] at hle
            have hzero : v ≤ 0 := hle
            omega
          · exact absurd (hchange.symm.trans hsome) (by simp)
        | some change =>
          obtain ⟨stored, hstored, hrecord⟩ := advance_of_write hw hchange
          have hversion : w.record.version = stored.version + 1 := congrArg Record.version hrecord
          rw [← hid] at hstored
          rcases Nat.lt_or_eq_of_le hle with hlt | heq
          · exact exists_lt_succ (ih id stored hstored v hpos (by omega))
          · exact ⟨t, by omega, w, change, hw, hchange, hid.symm, heq.symm⟩
      · rw [if_neg hid] at hr
        exact exists_lt_succ (ih id r hr v hpos hle)

/-! ### Published changes -/

/-- The changes of policies that were published, in their order. -/
def told (run : Run σ) (t : Nat) : List Event.PolicyChange :=
  (run.book t).published.filterMap fun e => e.payload.policyChange?

theorem Announces.policyChange?_eq {t i : Nat} {payload : Event.Payload}
    (h : run.Announces t i payload) : payload.policyChange? = none := by
  unfold Announces at h
  cases hcall : run.calls i with
  | submitClaim claim policy =>
    rw [hcall] at h
    obtain ⟨_, -, -, _, -, rfl⟩ := h
    rfl
  | approveClaim | rejectClaim | settleClaim | createProposal | finalizeProposal =>
    rw [hcall] at h
    rw [h]
    rfl
  | create | apply | dashboard =>
    rw [hcall] at h
    exact h.elim

/-- A change of a policy is published by a call that has dropped the dashboard, as the last step
behind its save. -/
theorem invalidated_of_publishes {u : Nat} {e : Event} {c : Event.PolicyChange}
    (he : run.publishes? u = some e) (hc : e.payload = .policy c) :
    ∃ r change, run.operation u (run.schedule u) = .apply (.invalidated r change) ∧
      e = Apply.event r change ∧ c = .ofTransition r.id r.holder change r.version := by
  rw [publishes?] at he
  cases hop : run.operation u (run.schedule u) with
  | apply progress =>
    rw [hop] at he
    cases progress with
    | invalidated r change =>
      obtain rfl := Option.some_inj.1 he
      exact ⟨r, change, rfl, rfl, (Event.Payload.policy.inj hc).symm⟩
    | asked | loaded | judged | saved | finished => exact absurd he (by simp [Operation.publishes?])
  | create | dashboard =>
    rw [hop] at he
    exact absurd he (by simp [Operation.publishes?])
  | announce progress =>
    rw [hop] at he
    cases progress with
    | worded payload =>
      obtain rfl := Option.some_inj.1 he
      have hpayload : payload = .policy c := hc
      have horigin := run.origin u (run.schedule u)
      rw [hop] at horigin
      have hnone := Announces.policyChange?_eq horigin
      rw [hpayload] at hnone
      exact absurd hnone (by simp [Event.Payload.policyChange?])
    | asked | finished => exact absurd he (by simp [Operation.publishes?])

theorem policyChange?_eq_some_iff {payload : Event.Payload} {c : Event.PolicyChange} :
    payload.policyChange? = some c ↔ payload = .policy c := by
  cases payload <;> simp [Event.Payload.policyChange?]

theorem mem_told {t : Nat} {c : Event.PolicyChange} :
    c ∈ run.told t ↔ ∃ e ∈ (run.book t).published, e.payload = .policy c := by
  simp only [told, List.mem_filterMap, policyChange?_eq_some_iff]

def TellsAt (run : Run σ) (u : Nat) (w : Write) (change : Transition) : Prop :=
  run.schedule u = w.call ∧ w.change = some change ∧
    run.operation u w.call = .apply (.invalidated w.record change)

theorem write_of_publishes {u : Nat} {e : Event} {c : Event.PolicyChange}
    (he : run.publishes? u = some e) (hc : e.payload = .policy c) :
    ∃ s < u, ∃ w change, run.write? s = some w ∧ run.TellsAt u w change ∧
      e = Apply.event w.record change ∧
      c = .ofTransition w.record.id w.record.holder change w.record.version := by
  obtain ⟨r, change, hop, hevent, hchange⟩ := invalidated_of_publishes he hc
  have horigin := run.origin u (run.schedule u)
  rw [hop] at horigin
  obtain ⟨s, hs, hw⟩ := horigin
  exact ⟨s, hs, ⟨run.schedule u, r, some change⟩, change, hw, ⟨rfl, rfl, hop⟩, hevent, hchange⟩

theorem write_of_told (hstart : run.start.published = []) {t : Nat} {e : Event}
    {c : Event.PolicyChange} (he : e ∈ (run.book t).published) (hc : e.payload = .policy c) :
    ∃ s u w change, s < u ∧ u < t ∧ run.write? s = some w ∧ run.TellsAt u w change ∧
      e = Apply.event w.record change ∧
      c = .ofTransition w.record.id w.record.holder change w.record.version := by
  rcases mem_published.1 he with hold | ⟨u, hu, hpublishes⟩
  · rw [hstart] at hold
    exact absurd hold List.not_mem_nil
  · obtain ⟨s, hs, w, change, hw, htells, hevent, hchange⟩ := write_of_publishes hpublishes hc
    exact ⟨s, u, w, change, hs, hu, hw, htells, hevent, hchange⟩

theorem tellsAt_unique {a b s s' : Nat} {v w : Write} {change change' : Transition}
    (hv : run.write? s = some v) (hw : run.write? s' = some w) (ha : run.TellsAt a v change)
    (hb : run.TellsAt b w change') (hid : v.record.id = w.record.id)
    (hversion : v.record.version = w.record.version) : a = b := by
  obtain ⟨hia, hchange, hopa⟩ := ha
  obtain ⟨hib, hchange', hopb⟩ := hb
  obtain rfl := write_unique hv hw hchange hchange' hid hversion
  obtain rfl := Option.some_inj.1 (hv.symm.trans hw)
  exact moment_unique hia hib (by rw [hopa, hopb]; rfl) (by rw [hopa]; exact Nat.lt_succ_self 4)

theorem told_once (hstart : run.start.published = []) (t : Nat) :
    (run.told t).Pairwise fun c d => c.policy = d.policy → c.version ≠ d.version := by
  induction t with
  | zero =>
    have hnil : run.told 0 = [] := by
      show run.start.published.filterMap _ = []
      rw [hstart]
      rfl
    rw [hnil]
    exact List.Pairwise.nil
  | succ t ih =>
    rw [told, published_succ, List.filterMap_append]
    refine List.pairwise_append.2 ⟨ih, ?_, ?_⟩
    · cases hlast : run.publishes? t with
      | none => exact List.Pairwise.nil
      | some e => cases hc : e.payload.policyChange? <;> simp [hc]
    · intro c hc d hd hpolicy hversion
      obtain ⟨e, he, hpayload⟩ := mem_told.1 hc
      obtain ⟨e', he', hpayload'⟩ := List.mem_filterMap.1 hd
      rw [policyChange?_eq_some_iff] at hpayload'
      obtain ⟨s, u, v, change, -, hu, hv, htells, -, rfl⟩ := write_of_told hstart he hpayload
      obtain ⟨s', -, w, change', hw, htells', -, rfl⟩ :=
        write_of_publishes (Option.mem_toList.1 he') hpayload'
      -- both would be the one step that publishes this version
      have := tellsAt_unique hv hw htells htells' hpolicy hversion
      omega

theorem recorded_of_published (hrecords : run.start.store = .empty)
    (hstart : run.start.published = []) {t : Nat} {e : Event} {c : Event.PolicyChange}
    (he : e ∈ (run.book t).published) (hc : e.payload = .policy c) :
    e.name = .ofAction c.action ∧ c.target = c.action.target ∧
      ∃ r change, (run.book t).store.find? c.policy = some r ∧ 1 ≤ c.version ∧
        c.version ≤ r.version ∧ r.transitions[c.version - 1]? = some change ∧
        c.Tells r change c.version := by
  obtain ⟨s, u, w, change, hsu, hut, hw, ⟨-, hchange, -⟩, rfl, rfl⟩ := write_of_told hstart he hc
  obtain ⟨r, hfound, hid, hholder, hpos, hle, hslot⟩ :=
    transition_of_write hrecords hw hchange (Nat.lt_trans hsu hut)
  obtain ⟨request, stored, -, -, hjudged, -, -⟩ := stored_of_write hw hchange
  obtain ⟨⟨⟨rule, hmem, -, haction, htarget, -⟩, -⟩, -⟩ := Table.lawful_of_transition hjudged
  refine ⟨rfl, ?_, r, change, hfound, hpos, hle, hslot, ?_⟩
  · show change.target = change.action.target
    rw [← htarget, ← haction]
    exact (run.office.table.sound rule hmem).2
  · have htells := Event.PolicyChange.tells_ofTransition w.record change w.record.version
    exact { htells with policy_eq := hid.symm, holder_eq := hholder.symm, version_eq := rfl }

/-! ### What is still to be published -/

/-- A call has saved a version of a policy and has not yet published it. -/
def Owes (run : Run σ) (t i : Nat) (id : PolicyId) (version : Nat) : Prop :=
  ∃ r change, (run.operation t i = .apply (.saved r change) ∨
    run.operation t i = .apply (.invalidated r change)) ∧ r.id = id ∧ r.version = version

/-- A call is not under way: it has not begun, or is finished. -/
def IsIdle (run : Run σ) (t i : Nat) : Prop :=
  run.operation t i = (run.calls i).begin ∨ (run.operation t i).stage = 5

theorem IsIdle.not_owes {t i : Nat} (h : run.IsIdle t i) (id : PolicyId) (version : Nat) :
    ¬run.Owes t i id version := by
  have hcommitted (progress : Apply) (hop : run.operation t i = .apply progress)
      (hstage : (Operation.apply progress).stage ≠ 5)
      (hprogress : (Operation.apply progress).IsCommitted) : False := by
    rcases h with hbegin | hfinished
    · exact Call.begin_ne hprogress (by simp) (hbegin.symm.trans hop)
    · rw [hop] at hfinished
      exact hstage hfinished
  rintro ⟨r, change, hop | hop, -⟩
  · exact hcommitted _ hop (by simp [Operation.stage]) trivial
  · exact hcommitted _ hop (by simp [Operation.stage]) trivial

/-- Every version of a record was published, or is owed by a call. -/
theorem told_or_owed (hrecords : run.start.store = .empty) {t : Nat} {id : PolicyId} {r : Record}
    (hr : (run.book t).store.find? id = some r) {v : Nat} (hpos : 1 ≤ v) (hle : v ≤ r.version) :
    (∃ c ∈ run.told t, c.policy = id ∧ c.version = v) ∨ ∃ i, run.Owes t i id v := by
  obtain ⟨s, hs, w, change, hw, hchange, rfl, rfl⟩ :=
    exists_write_of_version hrecords id r hr v hpos hle
  rcases (keeps_of_write hw hs).saved hchange with hop | hop | hop
  · exact .inr ⟨w.call, w.record, change, .inl hop, rfl, rfl⟩
  · exact .inr ⟨w.call, w.record, change, .inr hop, rfl, rfl⟩
  · left
    obtain ⟨u, hu, hi, change', htold⟩ := told_of_finished hop
    have hpublishes : run.publishes? u = some (Apply.event w.record change') := by
      rw [publishes?, hi, htold]
      rfl
    exact ⟨_, mem_told.2 ⟨_, mem_published.2 (.inr ⟨u, hu, hpublishes⟩), rfl⟩, rfl, rfl⟩

def toldVersions (run : Run σ) (t : Nat) (id : PolicyId) : List Nat :=
  ((run.told t).filter fun c => c.policy = id).map fun c => c.version

/-- The version of the record of a policy; zero without a record. -/
def version (run : Run σ) (t : Nat) (id : PolicyId) : Nat :=
  (((run.book t).store.find? id).map Record.version).getD 0

/-- Where no version of a policy is owed, every version of it was published once. -/
theorem toldVersions_perm (hrecords : run.start.store = .empty)
    (hstart : run.start.published = []) {t : Nat} {id : PolicyId}
    (hnone : ∀ i v, ¬run.Owes t i id v) :
    (run.toldVersions t id).Perm (List.range' 1 (run.version t id)) := by
  have hnodup : (run.toldVersions t id).Nodup := by
    refine List.pairwise_map.2 ?_
    refine List.Pairwise.imp_of_mem ?_ ((run.told_once hstart t).filter _)
    intro c d hc hd hne
    have hpolicy : c.policy = id := by simpa using (List.mem_filter.1 hc).2
    have hpolicy' : d.policy = id := by simpa using (List.mem_filter.1 hd).2
    exact hne (hpolicy.trans hpolicy'.symm)
  refine (List.perm_ext_iff_of_nodup hnodup List.nodup_range').2 fun v => ?_
  rw [List.mem_range'_1, toldVersions, List.mem_map, version]
  constructor
  · rintro ⟨c, hc, rfl⟩
    obtain ⟨htold, hpolicy⟩ := List.mem_filter.1 hc
    obtain rfl : c.policy = id := by simpa using hpolicy
    obtain ⟨e, he, hpayload⟩ := mem_told.1 htold
    obtain ⟨-, -, r, change, hfound, hpos, hle, -⟩ :=
      recorded_of_published hrecords hstart he hpayload
    rw [hfound]
    simp only [Option.map_some, Option.getD_some]
    omega
  · rintro ⟨hpos, hlt⟩
    cases hr : (run.book t).store.find? id with
    | none =>
      rw [hr] at hlt
      simp only [Option.map_none, Option.getD_none] at hlt
      omega
    | some r =>
      rw [hr] at hlt
      simp only [Option.map_some, Option.getD_some] at hlt
      rcases told_or_owed hrecords hr hpos (by omega) with ⟨c, hc, hpolicy, hversion⟩ | ⟨i, howes⟩
      · exact ⟨c, List.mem_filter.2 ⟨hc, by simpa using hpolicy⟩, hversion⟩
      · exact absurd howes (hnone i v)

/-- What was published about policies accounts for the records. -/
structure IsAccount (run : Run σ) (t : Nat) : Prop where
  /-- No two published changes are of one policy under one version. -/
  once : (run.told t).Pairwise fun c d => c.policy = d.policy → c.version ≠ d.version
  /-- A published change tells, field by field, the transition that the record shows in the place of
  its version; it is published under the name of its action and leads where this action leads. -/
  recorded : ∀ e ∈ (run.book t).published, ∀ c, e.payload = .policy c →
    e.name = .ofAction c.action ∧ c.target = c.action.target ∧
      ∃ r change, (run.book t).store.find? c.policy = some r ∧ 1 ≤ c.version ∧
        c.version ≤ r.version ∧ r.transitions[c.version - 1]? = some change ∧
        c.Tells r change c.version
  /-- A version of a record that was not published is owed by a call. -/
  owed : ∀ id r, (run.book t).store.find? id = some r → ∀ v, 1 ≤ v → v ≤ r.version →
    (∃ c ∈ run.told t, c.policy = id ∧ c.version = v) ∨ ∃ i, run.Owes t i id v
  /-- When no call is under way, every version of every record was published once. -/
  complete : (∀ i, run.IsIdle t i) →
    ∀ id, (run.toldVersions t id).Perm (List.range' 1 (run.version t id))
  /-- A call that fails publishes nothing. -/
  silent : ∀ i, (run.operation t i).HasFailed → ∀ u < t, run.schedule u = i →
    (run.book (u + 1)).published = (run.book u).published

end Run

/-- The published changes account for the records in every run that begins with a new book, whatever
is asked for and in whichever order the steps are taken. -/
theorem Office.published_isAccount (office : Office σ) (calls : Nat → Call) (desk : σ)
    (schedule : Nat → Nat) (t : Nat) : Run.IsAccount ⟨office, calls, .new desk, schedule⟩ t where
  once := Run.told_once rfl t
  recorded _ he _ hc := Run.recorded_of_published rfl rfl he hc
  owed _ _ hr _ hpos hle := Run.told_or_owed rfl hr hpos hle
  complete hidle _ := Run.toldVersions_perm rfl rfl fun i v => (hidle i).not_owes _ v
  silent _ hfailed _ hu hi := by rw [Run.book_of_failed hfailed hu hi]

end PolicyBook
