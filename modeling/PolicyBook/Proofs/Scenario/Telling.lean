import PolicyBook.Proofs.Scenario.Following
/-!
What the steps of a scenario publish.

An event tells of the transition to a version, and a record shows all of its transitions in the
order of the versions. So the events of a run can be read off its outcomes and the records behind
the last step: an outcome names a policy and a version, and the record has the rest.

* **`Follows.eventOf?_eq`** — later steps do not change what an outcome tells;
* **`Step.make_tells`** — a step publishes what its outcome tells;
* **`makeAll_tells`** — so do steps in a row.
-/
namespace PolicyBook.Scenario

open Policy

variable {σ : Type} {office : Office σ} {table : Table} {clock : Nat → Instant} {keys : Keys}
  {book : Book σ}

/-- The event that tells of the transition to a version, as the record shows it. -/
def eventAt? (r : Record) (version : Nat) : Option Event :=
  r.transitions[version - 1]?.map fun t => .of (.policy (.ofTransition r.id r.holder t version))

/-- The event that an outcome tells, as the record of its policy shows it. -/
def eventOf? (record? : String → Option Record) (o : Outcome) : Option Event :=
  match o.result with
  | .error _ => none
  | .ok progress => (record? o.policy).bind fun r => eventAt? r progress.version

theorem eventAt?_foldl_advance {r : Record} {version : Nat} (hpos : 1 ≤ version)
    (hle : version ≤ r.transitions.length) (changes : List Transition) :
    eventAt? (changes.foldl Record.advance r) version = eventAt? r version := by
  obtain ⟨hid, hholder, -, -⟩ := Record.kept_foldl_advance r changes
  rw [eventAt?, eventAt?, Record.transitions_foldl_advance, hid, hholder,
    List.getElem?_append_left (by omega)]

/-- The steps that follow leave what an outcome has told as it is. -/
theorem Follows.eventOf?_eq {steps : List (Step × Nat)} {outcomes : List Outcome} {after : Book σ}
    (h : Follows office keys clock steps book outcomes after)
    (hkept : AreKept office.table keys book) {o : Outcome}
    (hreached : ∀ progress, o.result = .ok progress →
      ∃ r, recordOf? keys book o.policy = some r ∧ 1 ≤ progress.version ∧
        progress.version ≤ r.version) :
    eventOf? (recordOf? keys after) o = eventOf? (recordOf? keys book) o := by
  unfold eventOf?
  cases hresult : o.result with
  | error failure => rfl
  | ok progress =>
    obtain ⟨r, hrecord, hpos, hle⟩ := hreached progress hresult
    obtain ⟨changes, hlast, -⟩ := follow_grows office.table clock (stepsOn o.policy steps) r
    rw [(hkept.history hrecord).version] at hle
    simp only [h.record_eq, hrecord, hlast, Option.bind_some]
    exact eventAt?_foldl_advance hpos hle changes

theorem eventAt?_advance {r : Record} (h : r.IsHistory table) (t : Transition) :
    eventAt? (r.advance t) (r.advance t).version = some (Apply.event (r.advance t) t) := by
  have hlast : (r.advance t).transitions[(r.advance t).version - 1]? = some t := by
    show (r.transitions ++ [t])[r.version + 1 - 1]? = some t
    rw [Nat.add_sub_cancel, h.version]
    exact List.getElem?_concat_length
  rw [eventAt?, hlast]
  rfl

theorem Step.make_tells (h : AreKept office.table keys book) (s : Step) (now : Instant)
    (index : Nat) :
    let done := s.make office keys now book
    Book.Advances office book
      (eventOf? (recordOf? keys done.2) ⟨index, s.policy, s.action, done.1⟩).toList done.2 := by
  intro done
  have hmade := s.makes h now
  have hdone : done = s.make office keys now book := rfl
  cases hkey : keys.get? s.policy with
  | none =>
    rw [hdone, make_of_undeclared hkey]
    exact .of_silent rfl rfl fun _ => rfl
  | some id =>
    obtain ⟨r, hfound, hhistory⟩ := h.recorded hkey
    have hrecord : recordOf? keys book s.policy = some r := by
      rw [recordOf?, hkey, Option.bind_some, hfound]
    rcases make_cases hkey hfound with ⟨failure, hjudge, hmake⟩ | ⟨t, store, hjudge, hsave, hmake⟩
    · rw [hdone, hmake]
      exact .of_silent rfl rfl fun _ => rfl
    · have hnext : recordOf? keys done.2 s.policy = some (r.advance t) := by
        rw [hmade.record_eq, if_pos rfl, hrecord, takeOn_of_ok hjudge]
      have hevent : eventOf? (recordOf? keys done.2) ⟨index, s.policy, s.action, done.1⟩ =
          some (Apply.event (r.advance t) t) := by
        rw [hdone, hmake] at hnext ⊢
        rw [eventOf?, hnext]
        exact eventAt?_advance hhistory t
      rw [hevent, hdone, hmake]
      exact .of_save hsave

theorem makeAll_tells (clock : Nat → Instant) (h : AreKept office.table keys book)
    (steps : List Step) (made : Nat) :
    let done := makeAll office keys clock made steps book
    Book.Advances office book (done.1.filterMap (eventOf? (recordOf? keys done.2))) done.2 := by
  induction steps generalizing made book with
  | nil => exact .of_silent rfl rfl fun _ => rfl
  | cons s rest ih =>
    have hmade := s.makes h (clock made)
    have hfirst := s.make_tells h (clock made) made
    have hfollows := makeAll_follows office clock hmade.kept rest (made + 1)
    have hrest := ih hmade.kept (made + 1)
    let next := (s.make office keys (clock made) book).2
    let o : Outcome := ⟨made, s.policy, s.action, (s.make office keys (clock made) book).1⟩
    let others := makeAll office keys clock (made + 1) rest next
    -- what the first step has told is still what the records show behind the last one
    have hstays : eventOf? (recordOf? keys others.2) o = eventOf? (recordOf? keys next) o :=
      hfollows.eventOf?_eq hmade.kept fun _ hok => hmade.reached hok
    have hevents : (o :: others.1).filterMap (eventOf? (recordOf? keys others.2)) =
        (eventOf? (recordOf? keys next) o).toList ++
          others.1.filterMap (eventOf? (recordOf? keys others.2)) := by
      rw [List.filterMap_cons, hstays]
      cases eventOf? (recordOf? keys next) o <;> rfl
    rw [makeAll_cons]
    show Book.Advances office book ((o :: others.1).filterMap _) others.2
    rw [hevents]
    exact hfirst.trans hrest

end PolicyBook.Scenario
