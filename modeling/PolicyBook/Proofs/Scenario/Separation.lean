import PolicyBook.Proofs.Scenario.Coherence
/-!
The policies of a scenario do not influence each other.

Of a scenario one may keep what concerns a single key and run that alone, at other times and with
other identifiers. The steps come to the same as they do among all others, and so does the record,
but for its identifier and the times in it.

* **`Step.takeOn_alike`** — a step comes to the same on records that are alike;
* **`follow_alike`** — so do steps in a row;
* **`run_onlyKey`** — a run with everything, beside the run with one key only.
-/
namespace PolicyBook

open Policy

/-- A transition as it is when it is made at another time. -/
def Transition.timed (now : Instant) (t : Transition) : Transition := { t with madeAt := now }

/-- Records that differ in their identifiers and in times only. -/
structure Policy.Record.IsLike (r other : Record) : Prop where
  holder_eq : r.holder = other.holder
  premium_eq : r.premium = other.premium
  state_eq : r.state = other.state
  version_eq : r.version = other.version
  transitions_eq : r.transitions.map (Transition.timed .epoch) =
    other.transitions.map (Transition.timed .epoch)

theorem Policy.Record.IsLike.advance {r other : Record} (h : r.IsLike other) (now now' : Instant)
    (t : Transition) : (r.advance (t.timed now)).IsLike (other.advance (t.timed now')) where
  holder_eq := h.holder_eq
  premium_eq := h.premium_eq
  state_eq := rfl
  version_eq := congrArg (· + 1) h.version_eq
  transitions_eq := by
    show (r.transitions ++ [t.timed now]).map _ = (other.transitions ++ [t.timed now']).map _
    rw [List.map_append, List.map_append, h.transitions_eq]
    rfl

theorem Table.transition_timed (table : Table) (source : State) (action : Action)
    (roles : RoleSet) (reason : Option String) (now : Instant) :
    table.transition source action roles reason now =
      (table.transition source action roles reason .epoch).map (Transition.timed now) := by
  unfold transition
  cases table.rule? source action with
  | none => rfl
  | some rule =>
    by_cases hneeds : (rule.needsReason && (statedReason reason).isNone) = true
    · simp only [if_pos hneeds]
      rfl
    · simp only [if_neg hneeds]
      cases (roles.inter rule.allowed).first? <;> rfl

namespace Scenario

variable (table : Table) (clock clock' : Nat → Instant)

/-! ### Following records that are alike -/

theorem Step.judge_timed (state : State) (now : Instant) (s : Step) :
    s.judge table state now = (s.judge table state .epoch).map (Transition.timed now) := by
  unfold judge
  cases Action.parse s.action with
  | error refusal => rfl
  | ok action =>
    cases RoleSet.parseNames s.roles with
    | error refusal => rfl
    | ok roles =>
      show (table.transition state action roles s.reason now).mapError _ = _
      rw [table.transition_timed]
      show _ = ((table.transition state action roles s.reason .epoch).mapError _).map _
      cases table.transition state action roles s.reason .epoch <;> rfl

theorem Step.takeOn_alike {r other : Option Record} (h : Option.Rel Record.IsLike r other)
    (now now' : Instant) (s : Step) :
    (s.takeOn table now r).1 = (s.takeOn table now' other).1 ∧
      Option.Rel Record.IsLike (s.takeOn table now r).2 (s.takeOn table now' other).2 := by
  cases h with
  | none => exact ⟨rfl, .none⟩
  | @some r other hlike =>
    -- both are judged from one state, at times that go into the transition and nowhere else
    have hr := s.judge_timed table r.state now
    have hother := s.judge_timed table other.state now'
    have hsame : s.judge table r.state .epoch = s.judge table other.state .epoch := by
      rw [hlike.state_eq]
    rw [hsame] at hr
    cases hjudge : s.judge table other.state .epoch with
    | error failure =>
      rw [hjudge] at hr hother
      rw [takeOn_of_error hr, takeOn_of_error hother]
      exact ⟨rfl, .some hlike⟩
    | ok t =>
      rw [hjudge] at hr hother
      rw [takeOn_of_ok hr, takeOn_of_ok hother]
      refine ⟨?_, .some (hlike.advance now now' t)⟩
      show Except.ok (⟨_, r.version + 1⟩ : Progress) = .ok ⟨_, other.version + 1⟩
      rw [hlike.version_eq]
      rfl

def Outcome.told (o : Outcome) : String × String × Except StepFailure Progress :=
  (o.policy, o.action, o.result)

theorem follow_alike {r other : Option Record} (h : Option.Rel Record.IsLike r other)
    {steps steps' : List (Step × Nat)} (hsteps : steps.map Prod.fst = steps'.map Prod.fst) :
    (follow table clock steps r).1.map Outcome.told =
        (follow table clock' steps' other).1.map Outcome.told ∧
      Option.Rel Record.IsLike (follow table clock steps r).2
        (follow table clock' steps' other).2 := by
  induction steps generalizing steps' r other with
  | nil =>
    obtain rfl := List.map_eq_nil_iff.1 hsteps.symm
    exact ⟨rfl, h⟩
  | cons s rest ih =>
    obtain ⟨s', rest', rfl, hs, hrest⟩ := List.map_eq_cons_iff.1 hsteps.symm
    obtain ⟨hresult, hnext⟩ := s.1.takeOn_alike table h (clock s.2) (clock' s'.2)
    obtain ⟨houtcomes, hlast⟩ := ih hnext hrest.symm
    rw [follow_cons, follow_cons, hs]
    refine ⟨?_, hlast⟩
    show (s.1.policy, s.1.action, _) :: _ = (s.1.policy, s.1.action, _) :: _
    rw [← hresult, houtcomes]

/-! ### Keeping one key -/

theorem map_fst_stepsOn (key : String) (steps : List Step) :
    (stepsOn key steps.zipIdx).map Prod.fst = steps.filter fun s => s.policy = key := by
  have hfilter := List.filter_map (f := Prod.fst) (l := steps.zipIdx)
    (p := fun s : Step => decide (s.policy = key))
  rw [List.zipIdx_map_fst] at hfilter
  exact hfilter.symm

theorem map_fst_declaredAmong? (key : String) (declarations : List Declaration) :
    (declaredAmong? declarations.zipIdx key).map Prod.fst =
      declarations.find? fun d => d.key = key := by
  have hfind := List.find?_map (f := Prod.fst) (l := declarations.zipIdx)
    (p := fun d : Declaration => decide (d.key = key))
  rw [List.zipIdx_map_fst] at hfind
  exact hfind.symm

/-- The steps on a key and its declaration stay as they are when everything else goes. -/
theorem map_fst_stepsOn_onlyKey (key : String) (scenario : Scenario) :
    (stepsOn key scenario.steps.zipIdx).map Prod.fst =
      (stepsOn key (scenario.onlyKey key).steps.zipIdx).map Prod.fst := by
  rw [map_fst_stepsOn, map_fst_stepsOn, onlyKey, List.filter_filter]
  simp only [Bool.and_self]

theorem drafts_alike (supply supply' : Supply) (key : String) (scenario : Scenario) :
    Option.Rel Record.IsLike
      ((declaredAmong? scenario.policies.zipIdx key).map (draftOf supply))
      ((declaredAmong? (scenario.onlyKey key).policies.zipIdx key).map (draftOf supply')) := by
  -- the first declaration of the key is kept, under another number
  have hfirst : (declaredAmong? scenario.policies.zipIdx key).map Prod.fst =
      (declaredAmong? (scenario.onlyKey key).policies.zipIdx key).map Prod.fst := by
    rw [map_fst_declaredAmong?, map_fst_declaredAmong?, onlyKey, List.find?_filter]
    simp
  generalize declaredAmong? scenario.policies.zipIdx key = d at hfirst ⊢
  generalize declaredAmong? (scenario.onlyKey key).policies.zipIdx key = d' at hfirst ⊢
  cases d with
  | none =>
    obtain rfl := Option.map_eq_none_iff.1 hfirst.symm
    exact .none
  | some d =>
    obtain ⟨d', rfl, hd⟩ := Option.map_eq_some_iff.1 hfirst.symm
    exact .some ⟨congrArg Declaration.holder hd.symm, congrArg Declaration.premium hd.symm, rfl,
      rfl, rfl⟩

variable {config : Config} {surroundings surroundings' : Surroundings} {scenario : Scenario}
  {key : String}

theorem Session.alike (session : Session config surroundings scenario)
    (part : Session config surroundings' (scenario.onlyKey key)) :
    (outcomesOn key session.report.steps).map Outcome.told =
        (outcomesOn key part.report.steps).map Outcome.told ∧
      Option.Rel Record.IsLike (session.report.record? surroundings.policies scenario key)
        (part.report.record? surroundings'.policies (scenario.onlyKey key) key) := by
  have hfollows := session.follows scenario.steps
  have hpart := part.follows (scenario.onlyKey key).steps
  have hdrafts : Option.Rel Record.IsLike (recordOf? session.known session.drafted key)
      (recordOf? part.known part.drafted key) := by
    rw [recordOf?_of_draftAll session.drafted_eq, recordOf?_of_draftAll part.drafted_eq]
    exact drafts_alike _ _ key scenario
  obtain ⟨htold, hlast⟩ := follow_alike .standard surroundings.clock surroundings'.clock hdrafts
    (map_fst_stepsOn_onlyKey key scenario)
  rw [session.record?_report, part.record?_report, hfollows.record_eq, hpart.record_eq]
  refine ⟨?_, hlast⟩
  show (outcomesOn key (session.after _).1).map _ = (outcomesOn key (part.after _).1).map _
  rw [hfollows.outcomes_eq, hpart.outcomes_eq]
  exact htold

theorem HasDistinctKeys.onlyKey (h : scenario.HasDistinctKeys) (key : String) :
    (scenario.onlyKey key).HasDistinctKeys :=
  h.sublist (List.filter_sublist.map _)

theorem length_onlyKey (h : scenario.HasDistinctKeys) (key : String) :
    (scenario.onlyKey key).policies.length = if key ∈ declaredKeys scenario then 1 else 0 := by
  have hcount : (scenario.onlyKey key).policies.length = (declaredKeys scenario).count key := by
    rw [onlyKey, ← List.countP_eq_length_filter, List.count, declaredKeys, List.countP_map]
    refine List.countP_congr fun d _ => ?_
    simp
  exact hcount.trans (List.Nodup.count h)

theorem length_onlyKey_le (h : scenario.HasDistinctKeys) (key : String) :
    (scenario.onlyKey key).policies.length ≤ 1 := by
  rw [length_onlyKey h]
  split <;> decide

theorem isFresh_onlyKey (supply : Supply) (h : scenario.HasDistinctKeys) (key : String) :
    supply.IsFresh (scenario.onlyKey key).policies.length := by
  intro i hi j hj _
  have hone := length_onlyKey_le h key
  omega

theorem Session.outcomesOn_onlyKey (part : Session config surroundings (scenario.onlyKey key)) :
    outcomesOn key part.report.steps = part.report.steps := by
  refine List.filter_eq_self.2 fun o ho => ?_
  have hshown := makeAll_shown (.standard config) part.known surroundings.clock 0
    (scenario.onlyKey key).steps part.drafted
  have hmem := List.mem_map_of_mem (f := fun o : Outcome => (o.index, o.policy, o.action)) ho
  rw [show part.report.steps.map _ = _ from hshown] at hmem
  obtain ⟨s, hs, heq⟩ := List.mem_map.1 hmem
  have hkept := List.fst_mem_of_mem_zipIdx hs
  have hpolicy : s.1.policy = o.policy := congrArg (fun shown => shown.2.1) heq
  rw [← hpolicy]
  exact (List.mem_filter.1 hkept).2

theorem Session.policies_onlyKey (part : Session config surroundings (scenario.onlyKey key))
    (hkeys : scenario.HasDistinctKeys) :
    part.report.policies =
      (part.report.record? surroundings.policies (scenario.onlyKey key) key).toList := by
  have hlength := part.length_policies
  have hone := length_onlyKey_le hkeys key
  cases hdeclared : declaredAmong? (scenario.onlyKey key).policies.zipIdx key with
  | none =>
    have hnil : (scenario.onlyKey key).policies = [] := by
      refine List.eq_nil_iff_forall_not_mem.2 fun d hd => ?_
      have hkey : d.key = key := by simpa using (List.mem_filter.1 hd).2
      exact declaredAmong?_eq_none_iff.1 hdeclared (List.mem_map.2 ⟨d, hd, hkey⟩)
    rw [hnil] at hlength
    rw [List.length_eq_zero_iff.1 hlength, Report.record?, hdeclared]
    rfl
  | some d =>
    obtain ⟨hmem, hkey⟩ := of_declaredAmong? hdeclared
    obtain ⟨r, hr, -⟩ := part.recorded hmem
    rw [hkey] at hr
    have hlisted : r ∈ part.report.policies := by
      rw [Report.record?, hdeclared] at hr
      exact List.mem_of_find?_eq_some hr
    obtain ⟨other, hother⟩ := List.length_eq_one_iff.1
      (Nat.le_antisymm (hlength ▸ hone) (List.length_pos_of_mem hlisted))
    rw [hother, List.mem_singleton] at hlisted
    rw [hr, hother, hlisted]
    rfl

/-- What is reported for a key by a run with everything and by the run with this key only. -/
structure Report.IsSeparate (supply : Supply) (scenario : Scenario) (key : String)
    (report part : Report) : Prop where
  /-- The steps on the key have the same states and versions, or the same failures. -/
  told_eq : (outcomesOn key report.steps).map Outcome.told = part.steps.map Outcome.told
  /-- The record is the same but for its identifier and the times in it. It is the only one, and
  there is one if the key was declared. -/
  record_alike : Option.Rel Record.IsLike (report.record? supply scenario key) part.policies.head?
  only : part.policies.length = if key ∈ declaredKeys scenario then 1 else 0

/-- In a scenario whose keys are distinct no policy influences another: what concerns a key comes to
the same when it is run alone, whatever the identifiers and the times are. The whole scenario can be
run as long as the identifiers are fresh, and what concerns one key can always be run. -/
theorem run_onlyKey (config : Config) (surroundings surroundings' : Surroundings)
    (scenario : Scenario) (hkeys : scenario.HasDistinctKeys) (key : String) :
    ((∃ report, run config surroundings scenario = .ok report) ↔
      surroundings.policies.IsFresh scenario.policies.length) ∧
    ∃ part, run config surroundings' (scenario.onlyKey key) = .ok part ∧
      ∀ report, run config surroundings scenario = .ok report →
        report.IsSeparate surroundings.policies scenario key part := by
  have hsession : Nonempty (Session config surroundings scenario) ↔ _ :=
    exists_session_iff config hkeys
  obtain ⟨part⟩ := (exists_session_iff config (hkeys.onlyKey key)).2
    (isFresh_onlyKey surroundings'.policies hkeys key)
  refine ⟨?_, part.report, run_eq_ok_iff.2 ⟨part, rfl⟩, fun report hreport => ?_⟩
  · rw [← hsession]
    constructor
    · rintro ⟨report, hreport⟩
      obtain ⟨session, -⟩ := run_eq_ok_iff.1 hreport
      exact ⟨session⟩
    · rintro ⟨session⟩
      exact ⟨session.report, run_eq_ok_iff.2 ⟨session, rfl⟩⟩
  · obtain ⟨session, rfl⟩ := run_eq_ok_iff.1 hreport
    obtain ⟨htold, halike⟩ := session.alike part
    constructor
    case told_eq => rw [htold, part.outcomesOn_onlyKey]
    case record_alike =>
      rw [part.policies_onlyKey hkeys]
      simpa using halike
    case only => exact part.length_policies.trans (length_onlyKey hkeys key)

def laterSurroundings : Surroundings where
  policies := .counting 7 .epoch
  notifications := .counting 200 .epoch
  clock _ := (Instant.ofParts? 60 0).get (by decide)

theorem carAndHome_onlyCar :
    ∃ report part, run .standard stillSurroundings carAndHome = .ok report ∧
      run .standard laterSurroundings (carAndHome.onlyKey "car") = .ok part ∧
      report.IsSeparate stillSurroundings.policies carAndHome "car" part := by
  obtain ⟨hruns, part, hpart, hsame⟩ := run_onlyKey .standard stillSurroundings laterSurroundings
    carAndHome (by unfold HasDistinctKeys; decide) "car"
  obtain ⟨report, hreport⟩ := hruns.2 (by unfold Supply.IsFresh; decide)
  exact ⟨report, part, hreport, hpart, hsame report hreport⟩

end Scenario

end PolicyBook
