import PolicyBook.Proofs.Scenario.Telling
/-!
A scenario as it is run.

A run that comes to a report has drafted all policies and made the steps in a book of its own. The
book and what the keys stand for are not in the report; here they are kept beside it.

* **`run_eq_ok_iff`** — a report is that of a session;
* **`exists_session_iff`** — if all keys differ, there is a session exactly when the identifiers
  differ;
* **`Session.advances`** — a run publishes the events that its outcomes tell;
* **`Session.after_of_declared`** — a key that was declared stands for the draft of its policy with
  the transitions that the steps on it have made;
* **`Session.record?_report`** — the report shows the record that a key stands for.
-/
namespace PolicyBook.Scenario

open Policy

variable {config : Config} {surroundings : Surroundings} {scenario : Scenario}

/-- The record of the policy of a key that a report shows. -/
def Report.record? (supply : Supply) (scenario : Scenario) (report : Report) (key : String) :
    Option Record :=
  (declaredAmong? scenario.policies.zipIdx key).bind fun d =>
    report.policies.find? fun r => r.id = supply.policyId d.2

/-- The book in which a scenario is run, before anything happened. -/
def startOf (config : Config) (surroundings : Surroundings) : Book (Desk Unit) :=
  .new (.new config surroundings.notifications ())

/-- A scenario that is run: all its policies were drafted. -/
structure Session (config : Config) (surroundings : Surroundings) (scenario : Scenario) where
  known : Keys
  drafted : Book (Desk Unit)
  drafted_eq : draftAll (.standard config) surroundings.policies 0 scenario.policies .empty
    (startOf config surroundings) = .ok (known, drafted)

namespace Session

variable (session : Session config surroundings scenario)

/-- The outcomes of first steps, and the book behind the last of them. -/
def after (steps : List Step) : List Outcome × Book (Desk Unit) :=
  makeAll (.standard config) session.known surroundings.clock 0 steps session.drafted

def report : Report :=
  let done := session.after scenario.steps
  Scenario.report (.standard config) done.1 done.2

end Session

theorem run_eq_ok_iff {report : Report} : run config surroundings scenario = .ok report ↔
    ∃ session : Session config surroundings scenario, session.report = report := by
  have hrun : run config surroundings scenario =
      match draftAll (.standard config) surroundings.policies 0 scenario.policies .empty
        (startOf config surroundings) with
      | .error fault => .error fault
      | .ok (known, drafted) =>
        let done := makeAll (.standard config) known surroundings.clock 0 scenario.steps drafted
        .ok (Scenario.report (.standard config) done.1 done.2) := by
    rw [run, ← startOf]
    cases draftAll (.standard config) surroundings.policies 0 scenario.policies .empty
      (startOf config surroundings) <;> rfl
  rw [hrun]
  constructor
  · intro h
    split at h
    · exact absurd h (by simp)
    · next known drafted hdrafted => exact ⟨⟨known, drafted, hdrafted⟩, Except.ok.inj h⟩
  · rintro ⟨session, rfl⟩
    rw [session.drafted_eq]
    rfl

theorem exists_session_iff (config : Config) (hkeys : scenario.HasDistinctKeys) :
    Nonempty (Session config surroundings scenario) ↔
      surroundings.policies.IsFresh scenario.policies.length := by
  rw [← draftAll_new_isOk_iff _ hkeys]
  exact ⟨fun ⟨session⟩ => ⟨_, _, session.drafted_eq⟩, fun ⟨_, _, h⟩ => ⟨⟨_, _, h⟩⟩⟩

namespace Session

variable (session : Session config surroundings scenario)

theorem areKept : AreKept .standard session.known session.drafted :=
  areKept_of_draftAll session.drafted_eq .standard

theorem drafts : Drafts (.standard config) surroundings.policies scenario.policies.zipIdx .empty
    (startOf config surroundings) session.known session.drafted :=
  drafts_of_draftAll session.drafted_eq

theorem get?_known (key : String) : session.known.get? key =
    (declaredAmong? scenario.policies.zipIdx key).map fun d =>
      surroundings.policies.policyId d.2 :=
  (session.drafts.get?_eq key).trans Option.or_none

theorem follows (steps : List Step) : Follows (.standard config) session.known surroundings.clock
    steps.zipIdx session.drafted (session.after steps).1 (session.after steps).2 :=
  makeAll_follows _ _ session.areKept _ _

theorem advances (steps : List Step) :
    Book.Advances (.standard config) (startOf config surroundings)
      ((session.after steps).1.filterMap
        (eventOf? (recordOf? session.known (session.after steps).2)))
      (session.after steps).2 :=
  session.drafts.advances.trans (makeAll_tells _ session.areKept _ _)

theorem uncached (steps : List Step) :
    (session.after steps).2.cache.get? (Office.standard (τ := Unit) config).dashboardKey = none :=
  (session.follows steps).uncached (session.drafts.uncached rfl)

theorem ids_perm (steps : List Step) :
    ((session.after steps).2.store.list.map Record.id).Perm
      ((List.range scenario.policies.length).map surroundings.policies.policyId) := by
  have hids : (session.after steps).2.store.records.map Record.id =
      (List.range scenario.policies.length).map surroundings.policies.policyId := by
    rw [(session.follows steps).ids_eq, session.drafts.records_eq, ← map_policyId_zipIdx]
    show ([] ++ scenario.policies.zipIdx.map _).map Record.id = _
    rw [List.nil_append, List.map_map]
    rfl
  -- the report lists the records in another order than the store keeps them
  rw [← hids]
  exact (ordered_perm _ _).map _

theorem length_policies : session.report.policies.length = scenario.policies.length := by
  have hlength := (session.ids_perm scenario.steps).length_eq
  rwa [List.length_map, List.length_map, List.length_range] at hlength

theorem after_of_undeclared {key : String}
    (hkey : declaredAmong? scenario.policies.zipIdx key = none) (steps : List Step) :
    recordOf? session.known (session.after steps).2 key = none ∧
      outcomesOn key (session.after steps).1 = (stepsOn key steps.zipIdx).map fun s =>
        ⟨s.2, s.1.policy, s.1.action, .error (.undeclared s.1.policy)⟩ := by
  have hnone : recordOf? session.known session.drafted key = none := by
    rw [recordOf?_of_draftAll session.drafted_eq, hkey]
    rfl
  rw [(session.follows steps).record_eq, (session.follows steps).outcomes_eq, hnone, follow_none]
  exact ⟨rfl, rfl⟩

theorem after_of_declared {key : String} {d : Declaration × Nat}
    (hkey : declaredAmong? scenario.policies.zipIdx key = some d) (steps : List Step) :
    ∃ changes, recordOf? session.known (session.after steps).2 key =
        some (changes.foldl Record.advance (draftOf surroundings.policies d)) ∧
      Grows .standard surroundings.clock (stepsOn key steps.zipIdx)
        (draftOf surroundings.policies d) (outcomesOn key (session.after steps).1) changes := by
  have hdraft : recordOf? session.known session.drafted key =
      some (draftOf surroundings.policies d) := by
    rw [recordOf?_of_draftAll session.drafted_eq, hkey]
    rfl
  rw [(session.follows steps).record_eq, (session.follows steps).outcomes_eq, hdraft]
  exact follow_grows _ _ _ _

theorem record?_report (key : String) :
    session.report.record? surroundings.policies scenario key =
      recordOf? session.known (session.after scenario.steps).2 key := by
  rw [Report.record?, recordOf?, session.get?_known]
  cases declaredAmong? scenario.policies.zipIdx key with
  | none => rfl
  | some d => exact Store.find?_list _ _

end Session

end PolicyBook.Scenario
