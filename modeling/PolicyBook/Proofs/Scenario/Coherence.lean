import PolicyBook.Proofs.Scenario.Answers
import PolicyBook.Proofs.Scenario.Session
/-!
The parts of a report fit together.

A report is put together from the outcomes of the steps, the store, the inbox, the trail and the
figures. In a run that can begin they all tell the same: every step has the outcome that the earlier
outcomes for its policy lead to, every record is what the outcomes for its policy have made of it,
and what people were told and what was recorded are the events of the steps that were made.

* **`Session.answered`** — the outcome of a step in terms of the earlier outcomes;
* **`Session.recorded`** — the record of a policy in terms of the outcomes for it;
* **`run_isCoherent`** — a scenario with distinct keys can be run if identifiers are fresh, and its
  report is coherent.
-/
namespace PolicyBook.Scenario

open Policy

/-! ### What a report shows -/

/-- The events that a report tells of, in the order of the steps that were made. -/
def Report.events (supply : Supply) (scenario : Scenario) (report : Report) : List Event :=
  report.steps.filterMap (eventOf? (report.record? supply scenario))

def holder? (scenario : Scenario) (key : String) : Option HolderId :=
  (declaredAmong? scenario.policies.zipIdx key).map fun d => d.1.holder

/-- A record is what the outcomes for its policy have made of the declaration. -/
structure Report.Records (surroundings : Surroundings) (scenario : Scenario) (report : Report)
    (d : Declaration × Nat) (r : Record) : Prop where
  id_eq : r.id = surroundings.policies.policyId d.2
  holder_eq : r.holder = d.1.holder
  premium_eq : r.premium = d.1.premium
  createdAt_eq : r.createdAt = surroundings.policies.now d.2
  /-- The version counts the steps that were made. -/
  version_eq : r.version = ((outcomesOn d.1.key report.steps).filter Outcome.succeeded).length
  /-- State and version are those that were reported last, and those of a draft if none were. -/
  progress_eq : Progress.ofRecord r = reached d.1.key report.steps
  /-- Each step that was made has reported where its transition leads. -/
  targets_eq : progressOn d.1.key report.steps =
    (r.transitions.zipIdx 1).map fun t => ⟨t.1.target, t.2⟩
  /-- The transitions are those of the steps that were made, in their order. -/
  made : List.Forall₂ (MadeBy .standard surroundings.clock scenario.steps.zipIdx)
    ((outcomesOn d.1.key report.steps).filter Outcome.succeeded) r.transitions
  /-- They lead from a draft to the state of the record. -/
  history : r.IsHistory .standard

/-- A report whose parts all tell the same. -/
structure Report.IsCoherent (config : Config) (surroundings : Surroundings) (scenario : Scenario)
    (report : Report) : Prop where
  /-- There is one outcome for each step, in their order, with the texts of the step. -/
  shown : report.steps.map (fun o => (o.index, o.policy, o.action)) =
    scenario.steps.zipIdx.map fun s => (s.2, s.1.policy, s.1.action)
  /-- Each has either a state and a version or an error. -/
  either : ∀ o ∈ report.steps, o.IsEither
  /-- It is of the right kind, and what the earlier outcomes for the policy lead to. -/
  answered : ∀ (n : Nat) (s : Step), scenario.steps[n]? = some s → ∃ o : Outcome,
    report.steps[n]? = some o ∧
    s.IsAnswered (declaredKeys scenario) o ∧
    o.result = s.answer .standard (declaredKeys scenario) (report.steps.take n)
      (surroundings.clock n)
  /-- Every declared policy has its record, and there are no others. -/
  recorded : ∀ d ∈ scenario.policies.zipIdx, ∃ r,
    report.record? surroundings.policies scenario d.1.key = some r ∧
    report.Records surroundings scenario d r
  ids_perm : (report.policies.map Record.id).Perm
    ((List.range scenario.policies.length).map surroundings.policies.policyId)
  /-- Each step that was made has told one event. -/
  told : (report.events surroundings.policies scenario).map some =
    (report.steps.filter Outcome.succeeded).map
      (eventOf? (report.record? surroundings.policies scenario))
  /-- It tells the transition that the record of the policy shows under the reported version. -/
  telling : ∀ o ∈ report.steps, ∀ e,
    eventOf? (report.record? surroundings.policies scenario) o = some e → ∃ progress r t,
      o.result = .ok progress ∧
      report.record? surroundings.policies scenario o.policy = some r ∧
      r.transitions[progress.version - 1]? = some t ∧ e.TellsOf r t progress.version
  /-- Each of these was notified, in their order, to the holder of the policy. -/
  notified : report.notifications.map (fun n => (n.user, n.content)) =
    (report.events surroundings.policies scenario).map Event.notice
  addressed : report.notifications.map (fun n => some n.user) =
    (report.steps.filter Outcome.succeeded).map fun o => holder? scenario o.policy
  /-- The last of these were recorded, as the end of the chain of all of them. -/
  audited : report.audit.map Audit.Entry.told <:+ report.events surroundings.policies scenario
  audit_eq : report.audit = (Audit.wholeChain (report.events surroundings.policies scenario)).drop
    ((report.events surroundings.policies scenario).length -
      Audit.retained (max config.auditCapacity 1)
        (report.events surroundings.policies scenario).length)
  chainValid : report.chainValid = true
  /-- The figures are those of the records. -/
  dashboard : report.dashboard = .ofRecords report.policies

/-! ### Every report -/

namespace Session

variable {config : Config} {surroundings : Surroundings} {scenario : Scenario}
  (session : Session config surroundings scenario)

include session in
theorem hasDistinctKeys : scenario.HasDistinctKeys :=
  (draftAll_isOk_iff.1 ⟨_, _, session.drafted_eq⟩).1

theorem length_after (steps : List Step) : (session.after steps).1.length = steps.length := by
  have hshown := makeAll_shown (.standard config) session.known surroundings.clock 0 steps
    session.drafted
  have hlength := congrArg List.length hshown
  rwa [List.length_map, List.length_map, List.length_zipIdx] at hlength

theorem answered {before rest : List Step} {s : Step}
    (hsteps : scenario.steps = before ++ s :: rest) :
    ∃ o, session.report.steps[before.length]? = some o ∧
      o.result = s.answer .standard (declaredKeys scenario)
        (session.report.steps.take before.length) (surroundings.clock before.length) := by
  -- the step is made in the book behind those in front of it
  have hkept := (session.follows before).kept
  have hmade := s.makes hkept (surroundings.clock before.length)
  have hall : session.report.steps = (session.after before).1 ++
      (makeAll (.standard config) session.known surroundings.clock (0 + before.length) (s :: rest)
        (session.after before).2).1 := by
    show (makeAll _ _ _ _ scenario.steps _).1 = _
    rw [hsteps, makeAll_append]
    rfl
  have hlength := session.length_after before
  have htake : session.report.steps.take before.length = (session.after before).1 := by
    rw [hall, ← hlength, List.take_left]
  rw [htake, hall, makeAll_cons, Nat.zero_add, List.getElem?_append_right (by omega), hlength,
    Nat.sub_self]
  refine ⟨_, rfl, ?_⟩
  show (s.make _ _ _ _).1 = _
  rw [hmade.result_eq]
  by_cases hdeclared : s.policy ∈ declaredKeys scenario
  · obtain ⟨d, hkey⟩ := exists_declaredAmong? hdeclared
    obtain ⟨changes, hsome, hgrows⟩ := session.after_of_declared hkey before
    have hreached : reached s.policy (session.after before).1 = .ofRecord _ :=
      hgrows.ofRecord_eq.symm
    rw [hsome, Step.takeOn_some, Step.answer, if_pos hdeclared, hreached]
    rfl
  · have hkey := declaredAmong?_eq_none_iff.2 hdeclared
    obtain ⟨hnone, -⟩ := session.after_of_undeclared hkey before
    rw [hnone, Step.answer, if_neg hdeclared]
    rfl

theorem recorded {d : Declaration × Nat} (hd : d ∈ scenario.policies.zipIdx) :
    ∃ r, session.report.record? surroundings.policies scenario d.1.key = some r ∧
      session.report.Records surroundings scenario d r := by
  have hkey := declaredAmong?_of_mem session.hasDistinctKeys hd
  obtain ⟨changes, hsome, hgrows⟩ := session.after_of_declared hkey scenario.steps
  have hhistory := (session.follows scenario.steps).kept.history hsome
  have htransitions : _ = [] ++ changes :=
    Record.transitions_foldl_advance (draftOf surroundings.policies d) changes
  obtain ⟨hid, hholder, hpremium, hcreated⟩ :=
    Record.kept_foldl_advance (draftOf surroundings.policies d) changes
  have hmade := hgrows.made.imp (MadeBy.mono List.filter_sublist.subset)
  refine ⟨_, (session.record?_report _).trans hsome, ?_⟩
  constructor
  case id_eq => exact hid
  case holder_eq => exact hholder
  case premium_eq => exact hpremium
  case createdAt_eq => exact hcreated
  case version_eq =>
    rw [hhistory.version, htransitions]
    exact hmade.length_eq.symm
  case progress_eq => exact hgrows.ofRecord_eq
  case targets_eq =>
    rw [htransitions]
    exact hgrows.progress_eq
  case made =>
    rw [htransitions]
    exact hmade
  case history => exact hhistory

/-- A step that was made is on a declared policy, whose record shows the transition. -/
theorem shows {o : Outcome} (ho : o ∈ session.report.steps) {progress : Progress}
    (hok : o.result = .ok progress) :
    ∃ d r t, declaredAmong? scenario.policies.zipIdx o.policy = some d ∧
      session.report.record? surroundings.policies scenario o.policy = some r ∧
      r.holder = d.1.holder ∧ r.transitions[progress.version - 1]? = some t := by
  have hon : o ∈ outcomesOn o.policy session.report.steps := List.mem_filter.2 ⟨ho, by simp⟩
  have hdeclared : o.policy ∈ declaredKeys scenario := by
    by_contra hnot
    obtain ⟨-, hfailed⟩ :=
      session.after_of_undeclared (declaredAmong?_eq_none_iff.2 hnot) scenario.steps
    rw [show outcomesOn o.policy session.report.steps = _ from hfailed] at hon
    obtain ⟨s, -, rfl⟩ := List.mem_map.1 hon
    exact absurd hok (by simp)
  obtain ⟨d, hkey⟩ := exists_declaredAmong? hdeclared
  obtain ⟨hd, hpolicy⟩ := of_declaredAmong? hkey
  obtain ⟨r, hrecord, hrecords⟩ := session.recorded hd
  rw [hpolicy] at hrecord
  have hreported : progress ∈ progressOn o.policy session.report.steps :=
    List.mem_filterMap.2 ⟨o, hon, by rw [Outcome.progress?, hok]; rfl⟩
  rw [← hpolicy, hrecords.targets_eq] at hreported
  obtain ⟨⟨t, version⟩, hmem, rfl⟩ := List.mem_map.1 hreported
  exact ⟨d, r, t, hkey, hrecord, hrecords.holder_eq,
    (List.mk_mem_zipIdx_iff_le_and_getElem?_sub.1 hmem).2⟩

theorem eventOf?_isSome {o : Outcome} (ho : o ∈ session.report.steps) :
    (eventOf? (session.report.record? surroundings.policies scenario) o).isSome = o.succeeded := by
  cases hresult : o.result with
  | error failure =>
    rw [eventOf?, Outcome.succeeded, hresult]
    rfl
  | ok progress =>
    obtain ⟨d, r, t, -, hrecord, -, ht⟩ := session.shows ho hresult
    rw [eventOf?, Outcome.succeeded, hresult]
    simp only [hrecord, Option.bind_some, eventAt?, ht]
    rfl

theorem telling {o : Outcome} (ho : o ∈ session.report.steps) {e : Event}
    (he : eventOf? (session.report.record? surroundings.policies scenario) o = some e) :
    ∃ progress r t, o.result = .ok progress ∧
      session.report.record? surroundings.policies scenario o.policy = some r ∧
      r.transitions[progress.version - 1]? = some t ∧ e.TellsOf r t progress.version := by
  cases hresult : o.result with
  | error failure =>
    rw [eventOf?, hresult] at he
    exact absurd he (by simp)
  | ok progress =>
    obtain ⟨-, r, t, -, hrecord, -, ht⟩ := session.shows ho hresult
    rw [eventOf?, hresult] at he
    simp only [hrecord, Option.bind_some, eventAt?, ht, Option.map_some, Option.some_inj] at he
    rw [← he]
    exact ⟨progress, r, t, rfl, hrecord, ht,
      Event.tellsOf_ofTransition r t progress.version⟩

theorem recipient_eq {o : Outcome} (ho : o ∈ session.report.steps) (hmade : o.succeeded) :
    (eventOf? (session.report.record? surroundings.policies scenario) o).map
      (fun e => e.payload.recipient) = holder? scenario o.policy := by
  cases hresult : o.result with
  | error failure =>
    rw [Outcome.succeeded, hresult] at hmade
    exact absurd hmade (by simp)
  | ok progress =>
    obtain ⟨d, r, t, hkey, hrecord, hholder, ht⟩ := session.shows ho hresult
    rw [eventOf?, hresult, holder?, hkey]
    simp only [hrecord, Option.bind_some, eventAt?, ht, Option.map_some]
    exact congrArg some hholder

theorem isOneStory : (session.after scenario.steps).2.IsOneStory config.auditCapacity
    (session.report.events surroundings.policies scenario) := by
  have hadvances := session.advances scenario.steps
  have hrecord : session.report.record? surroundings.policies scenario =
      recordOf? session.known (session.after scenario.steps).2 :=
    funext session.record?_report
  rw [Report.events, hrecord]
  rw [Office.standard_eq_wired] at hadvances
  exact hadvances.isOneStory rfl rfl

theorem told : (session.report.events surroundings.policies scenario).map some =
    (session.report.steps.filter Outcome.succeeded).map
      (eventOf? (session.report.record? surroundings.policies scenario)) := by
  rw [Report.events, List.map_filterMap_some_eq_filter_map_isSome, List.filter_map]
  congr 1
  exact List.filter_congr fun _ ho => session.eventOf?_isSome ho

theorem addressed : session.report.notifications.map (fun n => some n.user) =
    (session.report.steps.filter Outcome.succeeded).map fun o => holder? scenario o.policy := by
  have hnotified : session.report.notifications.map (fun n => (n.user, n.content)) =
      (session.report.events surroundings.policies scenario).map Event.notice :=
    session.isOneStory.notified
  calc
    _ = (session.report.notifications.map fun n => (n.user, n.content)).map (some ∘ Prod.fst) := by
      rw [List.map_map]
      rfl
    _ = ((session.report.events surroundings.policies scenario).map some).map
        (Option.map fun e => e.payload.recipient) := by
      rw [hnotified, List.map_map, List.map_map]
      rfl
    _ = _ := by
      rw [session.told, List.map_map]
      refine List.map_congr_left fun o ho => ?_
      obtain ⟨hmem, hmade⟩ := List.mem_filter.1 ho
      exact session.recipient_eq hmem hmade

end Session

/-- A scenario whose keys are distinct can be run if the identifiers of its policies are fresh, and
all parts of its report tell the same. -/
theorem run_isCoherent (config : Config) (surroundings : Surroundings) (scenario : Scenario)
    (hkeys : scenario.HasDistinctKeys)
    (hfresh : surroundings.policies.IsFresh scenario.policies.length) :
    ∃ report, run config surroundings scenario = .ok report ∧
      report.IsCoherent config surroundings scenario := by
  obtain ⟨session⟩ := (exists_session_iff config hkeys).2 hfresh
  have hstory := session.isOneStory
  refine ⟨session.report, run_eq_ok_iff.2 ⟨session, rfl⟩, ?_⟩
  constructor
  case shown => exact makeAll_shown _ _ _ _ _ _
  case either => exact fun o _ => o.isEither
  case answered =>
    intro n s hs
    obtain ⟨hn, hget⟩ := List.getElem?_eq_some_iff.1 hs
    have hsteps : scenario.steps = scenario.steps.take n ++ s :: scenario.steps.drop (n + 1) := by
      rw [← hget, List.getElem_cons_drop, List.take_append_drop]
    obtain ⟨o, ho, hresult⟩ := session.answered hsteps
    rw [List.length_take_of_le (Nat.le_of_lt hn)] at ho hresult
    exact ⟨o, ho, .of_answer hresult, hresult⟩
  case recorded => exact fun d hd => session.recorded hd
  case ids_perm => exact session.ids_perm scenario.steps
  case told => exact session.told
  case telling => exact fun o ho e he => session.telling ho he
  case notified => exact hstory.notified
  case addressed => exact session.addressed
  case audited => exact hstory.told
  case audit_eq => exact hstory.isWindow.entries_eq
  case chainValid =>
    show Audit.Trail.isChain _ = true
    rw [Audit.Trail.isChain, hstory.isWindow.verify_eq]
  case dashboard =>
    show (Office.dashboard _ _).1 = _
    rw [Office.dashboard, Office.cachedDashboard?, session.uncached]
    rfl

/-- Steps on two policies and on one that was never declared. -/
def carAndHome : Scenario where
  policies := [⟨"car", ⟨"ann"⟩, 100⟩, ⟨"home", ⟨"bob"⟩, 250⟩]
  steps := [⟨"car", "issue", ["agent"], none⟩, ⟨"home", "cancel", ["admin"], some " "⟩,
    ⟨"boat", "sink", [], none⟩, ⟨"home", "insure", ["nobody"], none⟩,
    ⟨"car", " Cancel ", ["customer", "Admin"], some "sold"⟩, ⟨"car", "renew", ["agent"], none⟩]

def stillSurroundings : Surroundings where
  policies := .counting 1 .epoch
  notifications := .counting 100 .epoch
  clock _ := .epoch

theorem carAndHome_isCoherent :
    ∃ report, run .standard stillSurroundings carAndHome = .ok report ∧
      report.IsCoherent .standard stillSurroundings carAndHome :=
  run_isCoherent .standard stillSurroundings carAndHome
    (by unfold HasDistinctKeys; decide) (by unfold Supply.IsFresh; decide)

example : (run .standard stillSurroundings carAndHome).map (fun report =>
    report.steps.map fun o => (o.code?, o.progress?.map Progress.version)) =
      .ok [(none, some 1), (some "MISSING_REASON", none), (some "NOT_FOUND", none),
        (some "VALIDATION_ERROR", none), (none, some 2), (some "ILLEGAL_TRANSITION", none)] := by
  rfl

end PolicyBook.Scenario
