import PolicyBook.Proofs.Interleaving
/-!
The past of a call in a run.

An operation shows less than what its call did: a record that is about to be saved does not show
when it was loaded, nor figures when the records were listed. `Run.Origin` says what an operation
stands for, family by family, and

* **`Run.origin`** — every operation of a run has such a past;
* **`Run.loadsAt_unique`** — a call loads at most once;
* **`Run.call_of_write`** — what was written was asked for by the call that wrote it.
-/
namespace PolicyBook

open Policy

variable {σ : Type} {run : Run σ}

theorem Policy.Store.load_eq_ok_iff {store : Store} {id : PolicyId} {r : Record} :
    store.load id = .ok r ↔ store.find? id = some r := by
  unfold Store.load
  split <;> simp_all

theorem Office.record_eq_ok_iff {book : Book σ} {id : PolicyId} {r : Record} :
    record book id = .ok r ↔ book.store.find? id = some r := by
  rw [record, ← Store.load_eq_ok_iff]
  cases book.store.load id with
  | error fault => exact ⟨nofun, nofun⟩
  | ok stored =>
    constructor
    · exact fun h => congrArg Except.ok (Except.ok.inj h)
    · exact fun h => congrArg Except.ok (Except.ok.inj h)

namespace Run

/-- At a moment a call loads the record of the policy that it is about. -/
def LoadsAt (run : Run σ) (t i : Nat) (r : Record) : Prop :=
  run.schedule t = i ∧ ∃ request, run.operation t i = .apply (.asked request) ∧
    (run.book t).store.find? request.policy = some r

def ObservesAt (run : Run σ) (t i generation : Nat) : Prop :=
  run.schedule t = i ∧ run.operation t i = .dashboard .asked ∧
    generation = (run.book t).cache.generation run.office.dashboardKey

/-- What is to be announced is what the call says. A claim is handed in by the holder of its policy,
as a record shows that the call looked up. -/
def Announces (run : Run σ) (t i : Nat) (payload : Event.Payload) : Prop :=
  match run.calls i with
  | .submitClaim claim policy => ∃ a < t, run.schedule a = i ∧
      ∃ r, (run.book a).store.find? policy = some r ∧
        payload = .claim ⟨claim, r.holder, .submitted policy⟩
  | .approveClaim claim claimant => payload = .claim ⟨claim, claimant, .approved⟩
  | .rejectClaim claim claimant reason =>
    payload = .claim ⟨claim, claimant, .rejected (Text.trim reason)⟩
  | .settleClaim claim claimant amount => payload = .claim ⟨claim, claimant, .settled amount⟩
  | .createProposal proposal creator title =>
    payload = .proposal ⟨proposal, creator, .created title⟩
  | .finalizeProposal proposal creator passed =>
    payload = .proposal ⟨proposal, creator, .finalized passed⟩
  | .create .. | .apply _ | .dashboard => False

/-- What is known of the past of a call whose operation stands so at a moment. -/
def Origin (run : Run σ) (t i : Nat) : Operation → Prop
  | .apply (.asked request) => run.calls i = .apply request
  | .apply (.loaded request r) => ∃ a < t, run.calls i = .apply request ∧ run.LoadsAt a i r
  | .apply (.judged r change) => ∃ a < t, ∃ request loaded, run.calls i = .apply request ∧
      run.LoadsAt a i loaded ∧ r = loaded.apply change ∧
      run.office.table.transition loaded.state request.action request.roles request.reason
        request.now = .ok change
  | .apply (.saved kept change) | .apply (.invalidated kept change) =>
    ∃ u < t, run.write? u = some ⟨i, kept, some change⟩
  | .apply (.finished (.ok kept)) =>
    ∃ u < t, ∃ change, run.write? u = some ⟨i, kept, some change⟩
  | .create (.asked draft) => ∃ id holder premium now,
      run.calls i = .create id holder premium now ∧ draft = .draft id holder premium now
  | .create (.inserted draft) | .create (.finished (.ok draft)) =>
    ∃ u < t, run.write? u = some ⟨i, draft, none⟩
  | .dashboard (.observed generation) | .dashboard (.missed generation) =>
    ∃ a < t, run.ObservesAt a i generation
  | .dashboard (.listed generation records) =>
    ∃ m < t, ∃ a < m, run.ObservesAt a i generation ∧ records = (run.book m).store.list
  | .dashboard (.finished d) => ∃ m < t, ∃ a < m, ∃ generation, run.ObservesAt a i generation ∧
      (run.office.cachedDashboard? (run.book m) = some d ∨ d = .ofRecords (run.book m).store.list)
  | .announce (.asked claim policy) => run.calls i = .submitClaim claim policy
  | .announce (.worded payload) | .announce (.finished (.ok payload)) =>
    run.Announces t i payload
  | _ => True

theorem exists_lt_succ {p : Nat → Prop} {t : Nat} (h : ∃ u < t, p u) : ∃ u < t + 1, p u := by
  obtain ⟨u, hu, hp⟩ := h
  exact ⟨u, by omega, hp⟩

theorem Announces.succ {t i : Nat} {payload : Event.Payload} (h : run.Announces t i payload) :
    run.Announces (t + 1) i payload := by
  unfold Announces at h ⊢
  cases hcall : run.calls i with
  | submitClaim claim policy =>
    rw [hcall] at h
    exact exists_lt_succ h
  | create | apply | dashboard | approveClaim | rejectClaim | settleClaim | createProposal
  | finalizeProposal =>
    rw [hcall] at h
    exact h

theorem Origin.succ {t i : Nat} {op : Operation} (h : run.Origin t i op) :
    run.Origin (t + 1) i op := by
  -- what happened before a moment happened before the next one
  rcases op with progress | progress | progress | progress
  · cases progress with
    | asked => exact h
    | loaded | judged | saved | invalidated => exact exists_lt_succ h
    | finished result =>
      cases result with
      | ok => exact exists_lt_succ h
      | error => trivial
  · cases progress with
    | asked => exact h
    | inserted => exact exists_lt_succ h
    | finished result =>
      cases result with
      | ok => exact exists_lt_succ h
      | error => trivial
  · cases progress with
    | asked => trivial
    | observed | missed | listed | finished => exact exists_lt_succ h
  · cases progress with
    | asked => exact h
    | worded payload => exact Announces.succ h
    | finished result =>
      cases result with
      | ok payload => exact Announces.succ h
      | error => trivial

theorem Origin.step_apply {t i : Nat} {progress : Apply} (hi : run.schedule t = i)
    (hop : run.operation t i = .apply progress) (h : run.Origin t i (.apply progress)) :
    run.Origin (t + 1) i (run.operation (t + 1) i) := by
  have hwrite := write?_eq hi
  rw [operation_succ_self hi, hop] at hwrite ⊢
  cases progress with
  | asked request =>
    cases hload : (run.book t).store.load request.policy with
    | ok r =>
      simp only [Operation.step, Apply.step, hload]
      exact ⟨t, by omega, h, hi, request, hop, Store.load_eq_ok_iff.1 hload⟩
    | error fault =>
      simp only [Operation.step, Apply.step, hload]
      trivial
  | loaded request r =>
    obtain ⟨a, ha, hcall, hload⟩ := h
    cases hjudge : run.office.table.transition r.state request.action request.roles
        request.reason request.now with
    | ok change =>
      simp only [Operation.step, Apply.step, hjudge]
      exact ⟨a, by omega, request, r, hcall, hload, rfl, hjudge⟩
    | error denial =>
      simp only [Operation.step, Apply.step, hjudge]
      trivial
  | judged r change =>
    cases hsave : (run.book t).store.save r with
    | ok saved =>
      simp only [Operation.step, Apply.step, hsave] at hwrite ⊢
      exact ⟨t, by omega, hwrite⟩
    | error fault =>
      simp only [Operation.step, Apply.step, hsave]
      trivial
  | saved kept change => exact exists_lt_succ h
  | invalidated kept change =>
    obtain ⟨u, hu, hwritten⟩ := h
    exact ⟨u, by omega, change, hwritten⟩
  | finished result => exact Origin.succ h

theorem Origin.step_create {t i : Nat} {progress : Create} (hi : run.schedule t = i)
    (hop : run.operation t i = .create progress) (h : run.Origin t i (.create progress)) :
    run.Origin (t + 1) i (run.operation (t + 1) i) := by
  have hwrite := write?_eq hi
  rw [operation_succ_self hi, hop] at hwrite ⊢
  cases progress with
  | asked draft =>
    cases hinsert : (run.book t).store.insert draft with
    | ok store =>
      simp only [Operation.step, Create.step, hinsert] at hwrite ⊢
      exact ⟨t, by omega, hwrite⟩
    | error fault =>
      simp only [Operation.step, Create.step, hinsert]
      trivial
  | inserted draft => exact exists_lt_succ h
  | finished result => exact Origin.succ h

theorem Origin.step_dashboard {t i : Nat} {progress : DashboardQuery} (hi : run.schedule t = i)
    (hop : run.operation t i = .dashboard progress) (h : run.Origin t i (.dashboard progress)) :
    run.Origin (t + 1) i (run.operation (t + 1) i) := by
  rw [operation_succ_self hi, hop]
  cases progress with
  | asked => exact ⟨t, by omega, hi, hop, rfl⟩
  | observed generation =>
    obtain ⟨a, ha, hobserve⟩ := h
    cases hcached : run.office.cachedDashboard? (run.book t) with
    | some d =>
      simp only [Operation.step, DashboardQuery.step, hcached]
      exact ⟨t, by omega, a, ha, generation, hobserve, .inl hcached⟩
    | none =>
      simp only [Operation.step, DashboardQuery.step, hcached]
      exact ⟨a, by omega, hobserve⟩
  | missed generation =>
    obtain ⟨a, ha, hobserve⟩ := h
    exact ⟨t, by omega, a, ha, hobserve, rfl⟩
  | listed generation records =>
    obtain ⟨m, hm, a, ha, hobserve, hlist⟩ := h
    exact ⟨m, by omega, a, ha, generation, hobserve, .inr (by rw [← hlist])⟩
  | finished d => exact Origin.succ h

theorem Origin.step_announce {t i : Nat} {progress : Announce} (hi : run.schedule t = i)
    (hop : run.operation t i = .announce progress) (h : run.Origin t i (.announce progress)) :
    run.Origin (t + 1) i (run.operation (t + 1) i) := by
  rw [operation_succ_self hi, hop]
  cases progress with
  | asked claim policy =>
    cases hrecord : Office.record (run.book t) policy with
    | ok r =>
      have hcall : run.calls i = .submitClaim claim policy := h
      simp only [Operation.step, Announce.step, hrecord]
      show run.Announces (t + 1) i _
      rw [Announces, hcall]
      exact ⟨t, by omega, hi, r, Office.record_eq_ok_iff.1 hrecord, rfl⟩
    | error fault =>
      simp only [Operation.step, Announce.step, hrecord]
      trivial
  | worded payload => exact Announces.succ h
  | finished result => exact Origin.succ h

theorem origin (run : Run σ) (t i : Nat) : run.Origin t i (run.operation t i) := by
  induction t with
  | zero =>
    show run.Origin 0 i (run.calls i).begin
    cases hcall : run.calls i with
    | create id holder premium now => exact ⟨id, holder, premium, now, hcall, rfl⟩
    | apply request => exact hcall
    | dashboard => trivial
    | submitClaim => exact hcall
    | approveClaim | rejectClaim | settleClaim | createProposal | finalizeProposal =>
      show run.Announces 0 i _
      rw [Announces, hcall]
  | succ t ih =>
    -- a call whose turn it is not keeps its operation and its past
    by_cases hi : run.schedule t = i
    · cases hop : run.operation t i with
      | apply => exact Origin.step_apply hi hop (hop ▸ ih)
      | create => exact Origin.step_create hi hop (hop ▸ ih)
      | dashboard => exact Origin.step_dashboard hi hop (hop ▸ ih)
      | announce => exact Origin.step_announce hi hop (hop ▸ ih)
    · rw [operation_succ_of_ne hi]
      exact ih.succ

theorem LoadsAt.find?_eq {a i : Nat} {r : Record} {request : Request} (h : run.LoadsAt a i r)
    (hcall : run.calls i = .apply request) :
    (run.book a).store.find? request.policy = some r := by
  obtain ⟨-, asked, hop, hfind⟩ := h
  have hasked : run.calls i = .apply asked := by
    have := run.origin a i
    rwa [hop] at this
  obtain rfl : request = asked := by
    rw [hcall] at hasked
    exact Call.apply.inj hasked
  exact hfind

/-- What was written was asked for: a draft by a call that drafts it, a record after a transition by
a call for that transition. -/
theorem call_of_write {t : Nat} {w : Write} (hw : run.write? t = some w) :
    (w.change = none ∧ ∃ id holder premium now, run.calls w.call = .create id holder premium now ∧
      w.record = .draft id holder premium now) ∨
    (∃ change request, w.change = some change ∧ run.calls w.call = .apply request) := by
  have horigin := run.origin t w.call
  rcases cases_of_write hw with ⟨r, change, hop, -, hchange, -⟩ | ⟨hop, -, hchange, -⟩
  · rw [hop] at horigin
    obtain ⟨a, -, request, loaded, hcall, -⟩ := horigin
    exact .inr ⟨change, request, hchange, hcall⟩
  · rw [hop] at horigin
    exact .inl ⟨hchange, horigin⟩

end Run

end PolicyBook
