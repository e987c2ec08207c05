import PolicyBook.Proofs.Announcements
import PolicyBook.Proofs.Wiring
/-!
The order in which the audit trail lists the changes of a policy.

A call publishes its transition after it has saved it, and others may come in between. So the trail
lists the changes of a policy in the order in which they were published, which is the order of their
versions as long as no call saves while another one has saved and not yet published.

* **`Run.hasHeard`** — at every moment of a run the inbox and the trail have heard of what was
  published, and of nothing else;
* **`Run.owed_of_inverted`** — of two changes that are published against the order of their versions
  both were saved and not published at one moment;
* **`Run.told_ordered`** — so it is with all changes that a run publishes;
* **`Run.listing_isOrdered`** — what the trail lists for a policy, at every moment of every run;
* **`Office.listing_not_increasing`** — a run in which the trail lists version 2 before version 1.
-/
namespace PolicyBook

open Policy

variable {σ τ : Type} {run : Run σ}

namespace Run

/-! ### What the desk has heard -/

theorem hasHeard {run : Run (Desk τ)} {table : Table} {config : Config}
    {before after : List (Event.Name × Bystander τ)} {limit : Nat}
    (hoffice : run.office = .wired table config before after)
    (hstart : run.start.desk.HasHeard limit run.start.published) (t : Nat) :
    (run.book t).desk.HasHeard limit (run.book t).published := by
  induction t with
  | zero => exact hstart
  | succ t ih =>
    have heffect := run.effect_at (t := t) rfl
    rw [heffect.desk_eq, heffect.published_eq, hoffice]
    exact ih.publishAll _

/-! ### Changes that are published against the order of their versions -/

theorem owes_of_tellsAt {s m u : Nat} {w : Write} {change : Transition}
    (hw : run.write? s = some w) (htells : run.TellsAt u w change) (hsm : s < m) (hmu : m ≤ u) :
    run.Owes m w.call w.record.id w.record.version := by
  obtain ⟨-, hchange, hop⟩ := htells
  rcases (keeps_of_write hw hsm).saved hchange with hsaved | hinvalidated | hfinished
  · exact ⟨w.record, change, .inl hsaved, rfl, rfl⟩
  · exact ⟨w.record, change, .inr hinvalidated, rfl, rfl⟩
  · -- a call that has answered does not publish any more
    have hstays := finished_of_le hmu (by rw [hfinished]; rfl)
    rw [hop, hfinished] at hstays
    exact absurd hstays (by simp)

/-- Two versions of a policy stood between save and publication at one moment. -/
def Overlap (run : Run σ) (t : Nat) (id : PolicyId) (u v : Nat) : Prop :=
  ∃ m < t, ∃ i j, run.Owes m i id u ∧ run.Owes m j id v

/-- Of two changes that are published against the order of their versions, the one that is published
later was saved earlier, and both were owed once the other was saved. -/
theorem owed_of_inverted {s s' a b : Nat} {v w : Write} {change change' : Transition}
    (hv : run.write? s = some v) (hw : run.write? s' = some w) (ha : run.TellsAt a v change)
    (hb : run.TellsAt b w change') (hsa : s < a) (hab : a < b) (hid : v.record.id = w.record.id)
    (hversion : ¬v.record.version < w.record.version) :
    w.record.version < v.record.version ∧
      run.Overlap b v.record.id v.record.version w.record.version := by
  have hearlier : s' < s := by
    rcases Nat.lt_trichotomy s' s with hlt | rfl | hgt
    · exact hlt
    · -- one call makes one save, and publishes it at one moment
      obtain rfl := Option.some_inj.1 (hv.symm.trans hw)
      have := tellsAt_unique hv hw ha hb rfl rfl
      omega
    · exact absurd (version_lt_of_write hv hw hgt hid hb.2.1) hversion
  refine ⟨version_lt_of_write hw hv hearlier hid.symm ha.2.1, s + 1, by omega, v.call, w.call,
    ?_, ?_⟩
  · exact owes_of_tellsAt hv ha (Nat.lt_succ_self s) hsa
  · rw [hid]
    exact owes_of_tellsAt hw hb (by omega) (by omega)

/-- Changes of one policy are published in the order of their versions, except where two versions
stood between save and publication at one moment. -/
theorem told_ordered (hstart : run.start.published = []) (t : Nat) :
    (run.told t).Pairwise fun c d => c.policy = d.policy → c.version < d.version ∨
      d.version < c.version ∧ run.Overlap t c.policy c.version d.version := by
  induction t with
  | zero =>
    have hnil : run.told 0 = [] := by
      show run.start.published.filterMap _ = []
      rw [hstart]
      rfl
    rw [hnil]
    exact List.Pairwise.nil
  | succ t ih =>
    rw [told, published_succ, List.filterMap_append]
    refine List.pairwise_append.2 ⟨?_, ?_, ?_⟩
    · refine ih.imp fun {c d} h hpolicy => ?_
      rcases h hpolicy with hlt | ⟨hgt, m, hm, howed⟩
      · exact .inl hlt
      · exact .inr ⟨hgt, m, by omega, howed⟩
    · cases hlast : run.publishes? t with
      | none => exact List.Pairwise.nil
      | some e => cases hc : e.payload.policyChange? <;> simp [hc]
    · intro c hc d hd hpolicy
      obtain ⟨e, he, hpayload⟩ := mem_told.1 hc
      obtain ⟨e', he', hpayload'⟩ := List.mem_filterMap.1 hd
      rw [policyChange?_eq_some_iff] at hpayload'
      obtain ⟨s, a, v, change, hsa, hat, hv, ha, -, rfl⟩ := write_of_told hstart he hpayload
      obtain ⟨s', -, w, change', hw, hb, -, rfl⟩ :=
        write_of_publishes (Option.mem_toList.1 he') hpayload'
      by_cases hversion : v.record.version < w.record.version
      · exact .inl hversion
      · obtain ⟨hlt, m, hm, howed⟩ := owed_of_inverted hv hw ha hb hsa hat hpolicy hversion
        exact .inr ⟨hlt, m, by omega, howed⟩

/-! ### What the trail lists -/

def SavesApart (run : Run σ) (t : Nat) (id : PolicyId) : Prop :=
  ∀ m < t, ∀ i j u v, run.Owes m i id u → run.Owes m j id v → u = v

/-- What the trail lists for a policy, beside what was saved and published. -/
structure IsOrderedListing (run : Run (Desk τ)) (t : Nat) (id : PolicyId) : Prop where
  /-- These are the last changes of the policy that were published, in the order of publication. -/
  published : (run.book t).desk.trail.changes id <:+ Event.changes id (run.book t).published
  /-- Each tells the transition that the record shows in the place of its version. -/
  recorded : ∀ c ∈ (run.book t).desk.trail.changes id,
    ∃ r change, (run.book t).store.find? id = some r ∧ 1 ≤ c.version ∧ c.version ≤ r.version ∧
      r.transitions[c.version - 1]? = some change ∧ c.Tells r change c.version
  /-- They stand in the order of their versions, except where two versions stood between save and
  publication at one moment. -/
  ordered : ((run.book t).desk.trail.changes id).Pairwise fun c d =>
    c.version < d.version ∨ d.version < c.version ∧ run.Overlap t id c.version d.version
  /-- So their versions increase, if that never was the case. -/
  increasing : run.SavesApart t id → ((run.book t).desk.trail.versions id).Pairwise (· < ·)

/-- At every moment of every run with the usual listeners, the trail lists the changes of a policy
in the order in which they were published, and the versions increase as long as no two of them stood
between save and publication at once. -/
theorem listing_isOrdered {run : Run (Desk τ)} {table : Table} {config : Config}
    {before after : List (Event.Name × Bystander τ)} {supply : Supply} {other : τ}
    (hoffice : run.office = .wired table config before after)
    (hstart : run.start = .new (.new config supply other)) (t : Nat) (id : PolicyId) :
    run.IsOrderedListing t id := by
  have hpublished : run.start.published = [] := by
    rw [hstart]
    rfl
  have hstore : run.start.store = .empty := by
    rw [hstart]
    rfl
  have hnew : run.start.desk.HasHeard config.auditCapacity run.start.published := by
    rw [hstart]
    exact .new config supply other
  have hsuffix := (hasHeard hoffice hnew t).changes_suffix id
  have hlisted : ∀ c ∈ (run.book t).desk.trail.changes id, c ∈ run.told t ∧ c.policy = id := by
    intro c hc
    obtain ⟨htold, hpolicy⟩ := List.mem_filter.1 (hsuffix.subset hc)
    exact ⟨htold, by simpa using hpolicy⟩
  have hordered : ((run.book t).desk.trail.changes id).Pairwise fun c d =>
      c.version < d.version ∨ d.version < c.version ∧ run.Overlap t id c.version d.version := by
    have htold := ((told_ordered hpublished t).filter fun c => c.policy = id).sublist
      hsuffix.sublist
    refine htold.imp_of_mem fun {c d} hc hd h => ?_
    obtain ⟨-, rfl⟩ := hlisted c hc
    exact h (hlisted d hd).2.symm
  constructor
  case published => exact hsuffix
  case recorded =>
    intro c hc
    obtain ⟨htold, rfl⟩ := hlisted c hc
    obtain ⟨e, he, hpayload⟩ := mem_told.1 htold
    obtain ⟨-, -, hslot⟩ := recorded_of_published hstore hpublished he hpayload
    exact hslot
  case ordered => exact hordered
  case increasing =>
    intro hapart
    refine List.pairwise_map.2 (hordered.imp fun {c d} h => ?_)
    rcases h with hlt | ⟨hgt, m, hm, i, j, hi, hj⟩
    · exact hlt
    · have := hapart m hm i j _ _ hi hj
      omega

/-! ### Two calls, one after the other and interleaved -/

theorem isIdle_of_unscheduled {t i : Nat} (h : ∀ u < t, run.schedule u ≠ i) : run.IsIdle t i := by
  refine .inl ?_
  induction t with
  | zero => rfl
  | succ t ih =>
    rw [operation_succ_of_ne (h t (Nat.lt_succ_self t)), ih fun u hu => h u (Nat.lt_succ_of_lt hu)]

/-- Calls of which each is finished before the next one begins keep their versions apart. -/
theorem savesApart_of_idle {t : Nat} (h : ∀ m < t, ∀ i, i ≠ run.schedule m → run.IsIdle m i)
    (id : PolicyId) : run.SavesApart t id := by
  have hscheduled {m i v : Nat} (hm : m < t) (howes : run.Owes m i id v) : i = run.schedule m := by
    refine Decidable.byContradiction fun hne => ?_
    exact (h m hm i hne).not_owes id v howes
  intro m hm i j u v hi hj
  have hij : i = j := (hscheduled hm hi).trans (hscheduled hm hj).symm
  subst hij
  obtain ⟨r, change, hop, -, rfl⟩ := hi
  obtain ⟨r', change', hop', -, rfl⟩ := hj
  rcases hop with hop | hop <;> rcases hop' with hop' | hop' <;> simp_all

/-- A draft that is issued by one call and renewed by the next, on the usual office. -/
def issuedAndRenewed (schedule : List Nat) : Run (Desk Unit) where
  office := .standard .standard
  calls
    | 0 => .create ⟨⟨.replicate 32 (.last 15)⟩⟩ ⟨"h"⟩ 100 .epoch
    | 1 => .apply ⟨⟨⟨.replicate 32 (.last 15)⟩⟩, .issue, .single .agent, none, .epoch⟩
    | _ => .apply ⟨⟨⟨.replicate 32 (.last 15)⟩⟩, .renew, .single .agent, none, .epoch⟩
  start := .new (.new .standard (.counting 0 .epoch) ())
  schedule t := schedule.getD t 0

theorem office_issuedAndRenewed (schedule : List Nat) :
    (issuedAndRenewed schedule).office = .wired .standard .standard [] [] := by
  rw [← Office.standard_eq_wired]
  rfl

theorem versions_issuedAndRenewed (schedule : List Nat) (t : Nat)
    (hfew : ((issuedAndRenewed schedule).book t).published.length ≤ 10000) :
    ((issuedAndRenewed schedule).book t).desk.trail.versions ⟨⟨.replicate 32 (.last 15)⟩⟩ =
      Event.versions ⟨⟨.replicate 32 (.last 15)⟩⟩
        ((issuedAndRenewed schedule).book t).published := by
  have hstart : (issuedAndRenewed schedule).start.desk.HasHeard 10000
      (issuedAndRenewed schedule).start.published := .new .standard (.counting 0 .epoch) ()
  have hheard := hasHeard (office_issuedAndRenewed schedule) hstart t
  rw [Audit.Trail.versions, hheard.changes_eq hfew]
  rfl

theorem successive_listing :
    let run := issuedAndRenewed [0, 0, 1, 1, 1, 1, 1, 2, 2, 2, 2, 2]
    let id : PolicyId := ⟨⟨.replicate 32 (.last 15)⟩⟩
    run.IsOrderedListing 12 id ∧ run.SavesApart 12 id ∧
      (run.book 12).desk.trail.versions id = [1, 2] := by
  intro run id
  refine ⟨listing_isOrdered (office_issuedAndRenewed _) rfl 12 id, savesApart_of_idle ?_ id, ?_⟩
  · intro m hm i hi
    have hfew : ∀ u < 12, run.schedule u < 3 := by decide
    have hstage : ∀ m < 12, ∀ i < 3, i ≠ run.schedule m →
        (∀ u < m, run.schedule u ≠ i) ∨ (run.operation m i).stage = 5 := by decide +kernel
    rcases Nat.lt_or_ge i 3 with hlt | hge
    · rcases hstage m hm i hlt hi with hlater | hfinished
      · exact isIdle_of_unscheduled hlater
      · exact .inr hfinished
    · refine isIdle_of_unscheduled fun u hu => ?_
      have := hfew u (by omega)
      omega
  · have hpublished : Event.versions id (run.book 12).published = [1, 2] := by decide +kernel
    rw [versions_issuedAndRenewed _ 12 (by decide +kernel)]
    exact hpublished

end Run

/-- The versions that the trail lists do not always increase. The first call saves version 1; before
it publishes, the second one loads the record, saves version 2 and publishes it. -/
theorem Office.listing_not_increasing :
    ¬∀ (run : Run (Desk Unit)) (config : Config) (supply : Supply),
      run.office = .standard config → run.start = .new (.new config supply ()) →
      ∀ t id, ((run.book t).desk.trail.versions id).Pairwise (· < ·) := by
  intro h
  let turns : List Nat := [0, 0, 1, 1, 1, 2, 2, 2, 2, 2, 1, 1]
  have hincreasing := h (Run.issuedAndRenewed turns) .standard (.counting 0 .epoch) rfl rfl 12
    ⟨⟨.replicate 32 (.last 15)⟩⟩
  have hpublished : Event.versions ⟨⟨.replicate 32 (.last 15)⟩⟩
      ((Run.issuedAndRenewed turns).book 12).published = [2, 1] := by decide +kernel
  rw [Run.versions_issuedAndRenewed turns 12 (by decide +kernel), hpublished] at hincreasing
  exact absurd hincreasing (by decide)

end PolicyBook
