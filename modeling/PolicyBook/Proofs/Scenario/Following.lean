import Mathlib.Data.List.Forall2
import PolicyBook.Proofs.Announcements
import PolicyBook.Proofs.Scenario.Drafting
/-!
Following one policy through the steps of a scenario.

The steps of a run share one book, but what becomes of a step depends on the record of its own
policy only. So the outcomes for one key are those that its steps have by themselves, one after the
other, on the one record (`follow`); the steps in between leave it alone.

* **`Step.make_cases`** — a step on a declared policy is refused and does nothing, or it saves the
  record behind its transition and publishes the event;
* **`Step.makes`** — what a step does for its own key, and that it does nothing for others;
* **`makeAll_follows`** — the outcomes for a key are those of following it;
* **`follow_grows`** — the record that is followed takes on one transition for every step that was
  made.
-/
namespace PolicyBook.Scenario

open Policy

variable {σ : Type} {office : Office σ} {table : Table} {clock : Nat → Instant} {keys : Keys}
  {book : Book σ} {s : Step} {now : Instant}

/-! ### Steps without a book -/

def Step.judge (table : Table) (state : State) (now : Instant) (s : Step) :
    Except StepFailure Transition := do
  let action ← (Action.parse s.action).mapError StepFailure.unreadable
  let roles ← (RoleSet.parseNames s.roles).mapError StepFailure.unreadable
  (table.transition state action roles s.reason now).mapError fun denial =>
    .refused (.denied denial)

/-- First the action is read, then the roles, and then the table is asked. -/
theorem Step.judge_cases (table : Table) (state : State) (now : Instant) (s : Step) :
    (∃ refusal, Action.parse s.action = .error refusal ∧
        s.judge table state now = .error (.unreadable refusal)) ∨
      (∃ action refusal, Action.parse s.action = .ok action ∧
        RoleSet.parseNames s.roles = .error refusal ∧
        s.judge table state now = .error (.unreadable refusal)) ∨
      ∃ action roles, Action.parse s.action = .ok action ∧
        RoleSet.parseNames s.roles = .ok roles ∧
        s.judge table state now =
          (table.transition state action roles s.reason now).mapError fun denial =>
            .refused (.denied denial) := by
  cases haction : Action.parse s.action with
  | error refusal =>
    refine .inl ⟨refusal, rfl, ?_⟩
    rw [judge, haction]
    rfl
  | ok action =>
    cases hroles : RoleSet.parseNames s.roles with
    | error refusal =>
      refine .inr (.inl ⟨action, refusal, rfl, rfl, ?_⟩)
      rw [judge, haction, hroles]
      rfl
    | ok roles =>
      refine .inr (.inr ⟨action, roles, rfl, rfl, ?_⟩)
      rw [judge, haction, hroles]
      rfl

theorem Step.judge_eq_ok {state : State} {t : Transition}
    (h : s.judge table state now = .ok t) :
    ∃ action roles, Action.parse s.action = .ok action ∧
      RoleSet.parseNames s.roles = .ok roles ∧
      table.transition state action roles s.reason now = .ok t := by
  rcases judge_cases table state now s with ⟨_, -, heq⟩ | ⟨_, _, -, -, heq⟩ |
    ⟨action, roles, haction, hroles, heq⟩
  · exact absurd (heq.symm.trans h) (by simp)
  · exact absurd (heq.symm.trans h) (by simp)
  · refine ⟨action, roles, haction, hroles, ?_⟩
    rw [heq] at h
    cases ht : table.transition state action roles s.reason now with
    | error denial =>
      rw [ht] at h
      exact absurd h (by simp [Except.mapError])
    | ok made =>
      rw [ht] at h
      rw [show made = t from Except.ok.inj h]

/-- Make a step on the record of a policy; where there is none, no policy was declared. -/
def Step.takeOn (table : Table) (now : Instant) (s : Step) :
    Option Record → Except StepFailure Progress × Option Record
  | none => (.error (.undeclared s.policy), none)
  | some r =>
    match s.judge table r.state now with
    | .error failure => (.error failure, some r)
    | .ok t => (.ok (.ofRecord (r.advance t)), some (r.advance t))

@[simp]
theorem Step.takeOn_none (table : Table) (now : Instant) (s : Step) :
    s.takeOn table now none = (.error (.undeclared s.policy), none) := rfl

theorem Step.takeOn_of_error {r : Record} {failure : StepFailure}
    (h : s.judge table r.state now = .error failure) :
    s.takeOn table now (some r) = (.error failure, some r) := by
  unfold takeOn
  simp only [h]

theorem Step.takeOn_of_ok {r : Record} {t : Transition}
    (h : s.judge table r.state now = .ok t) :
    s.takeOn table now (some r) = (.ok (.ofRecord (r.advance t)), some (r.advance t)) := by
  unfold takeOn
  simp only [h]

theorem Step.takeOn_some (table : Table) (now : Instant) (s : Step) (r : Record) :
    (s.takeOn table now (some r)).1 =
      (s.judge table r.state now).map fun t => ⟨t.target, r.version + 1⟩ := by
  cases h : s.judge table r.state now with
  | error failure =>
    rw [takeOn_of_error h]
    rfl
  | ok t =>
    rw [takeOn_of_ok h]
    rfl

/-- Make steps on one record. Beside a step stands its index. -/
def follow (table : Table) (clock : Nat → Instant) :
    List (Step × Nat) → Option Record → List Outcome × Option Record
  | [], r => ([], r)
  | (s, index) :: rest, r =>
    let (result, r) := s.takeOn table (clock index) r
    let (outcomes, r) := follow table clock rest r
    (⟨index, s.policy, s.action, result⟩ :: outcomes, r)

def stepsOn (key : String) (steps : List (Step × Nat)) : List (Step × Nat) :=
  steps.filter fun s => s.1.policy = key

def outcomesOn (key : String) (outcomes : List Outcome) : List Outcome :=
  outcomes.filter fun o => o.policy = key

def Outcome.progress? (o : Outcome) : Option Progress := o.result.toOption

def progressOn (key : String) (outcomes : List Outcome) : List Progress :=
  (outcomesOn key outcomes).filterMap Outcome.progress?

/-! ### One step -/

theorem Step.make_of_undeclared (hkey : keys.get? s.policy = none) :
    s.make office keys now book = (.error (.undeclared s.policy), book) := by
  rw [make, request, hkey]
  rfl

theorem Step.make_cases {id : PolicyId} {r : Record} (hkey : keys.get? s.policy = some id)
    (hfound : book.store.find? id = some r) :
    (∃ failure, s.judge office.table r.state now = .error failure ∧
        s.make office keys now book = (.error failure, book)) ∨
      ∃ t store, s.judge office.table r.state now = .ok t ∧
        book.store.save (r.apply t) = .ok (r.advance t, store) ∧
        s.make office keys now book =
          (.ok (.ofRecord (r.advance t)),
            office.publish (Apply.event (r.advance t) t)
              (office.invalidate { book with store })) := by
  have hid : r.id = id := Store.id_of_find? hfound
  have hload : book.store.load id = .ok r := by rw [Store.load, hfound]
  rcases judge_cases office.table r.state now s with ⟨refusal, haction, hjudge⟩ |
    ⟨action, refusal, haction, hroles, hjudge⟩ | ⟨action, roles, haction, hroles, hjudge⟩
  · refine .inl ⟨_, hjudge, ?_⟩
    rw [make, request, hkey, haction]
    rfl
  · refine .inl ⟨_, hjudge, ?_⟩
    rw [make, request, hkey, haction, hroles]
    rfl
  · have hmake : s.make office keys now book =
        (((office.apply ⟨id, action, roles, s.reason, now⟩ book).1.mapError
          StepFailure.refused).map Progress.ofRecord,
          (office.apply ⟨id, action, roles, s.reason, now⟩ book).2) := by
      rw [make, request, hkey, haction, hroles]
      rfl
    rw [hjudge, hmake, Office.apply, hload]
    cases ht : office.table.transition r.state action roles s.reason now with
    | error denial =>
      refine .inl ⟨.refused (.denied denial), rfl, ?_⟩
      simp only [ht]
      rfl
    | ok t =>
      -- nobody has saved the record since it was loaded
      have hstored : book.store.find? (r.apply t).id = some r := by
        rw [show (r.apply t).id = id from hid, hfound]
      obtain ⟨⟨kept, store⟩, hsave⟩ := Store.save_isOk hstored rfl
      obtain ⟨-, -, -, rfl⟩ := Store.save_eq_ok hsave
      refine .inr ⟨t, store, rfl, hsave, ?_⟩
      simp only [ht, hsave]
      rfl

/-- What a step does: for its own key what it does on the record by itself, and nothing for
others. -/
structure Step.Makes (office : Office σ) (keys : Keys) (now : Instant) (s : Step) (book : Book σ)
    (result : Except StepFailure Progress) (next : Book σ) : Prop where
  result_eq : result = (s.takeOn office.table now (recordOf? keys book s.policy)).1
  record_eq : ∀ key, recordOf? keys next key =
    if key = s.policy then (s.takeOn office.table now (recordOf? keys book s.policy)).2
    else recordOf? keys book key
  kept : AreKept office.table keys next
  ids_eq : next.store.records.map Record.id = book.store.records.map Record.id
  uncached : book.cache.get? office.dashboardKey = none →
    next.cache.get? office.dashboardKey = none

theorem Step.makes (h : AreKept office.table keys book) (s : Step) (now : Instant) :
    s.Makes office keys now book (s.make office keys now book).1
      (s.make office keys now book).2 := by
  cases hkey : keys.get? s.policy with
  | none =>
    -- the book stays as it is, and the key stands for no record
    have hrecord : recordOf? keys book s.policy = none := by rw [recordOf?, hkey, Option.bind_none]
    rw [make_of_undeclared hkey]
    refine ⟨by rw [hrecord]; rfl, fun key => ?_, h, rfl, id⟩
    split
    · next heq => rw [heq, hrecord]; rfl
    · rfl
  | some id =>
    obtain ⟨r, hfound, hhistory⟩ := h.recorded hkey
    have hrecord : recordOf? keys book s.policy = some r := by
      rw [recordOf?, hkey, Option.bind_some, hfound]
    rcases make_cases hkey hfound with ⟨failure, hjudge, hmake⟩ | ⟨t, store, hjudge, hsave, hmake⟩
    · have htake := takeOn_of_error hjudge
      rw [hmake]
      refine ⟨by rw [hrecord, htake], fun key => ?_, h, rfl, fun h => h⟩
      rw [hrecord, htake]
      split
      · next heq => rw [heq, hrecord]
      · rfl
    · have htake := takeOn_of_ok hjudge
      have hfind (other : PolicyId) : store.find? other =
          if other = id then some (r.advance t) else book.store.find? other := by
        have hid : (r.apply t).id = id := by
          show r.id = id
          exact Store.id_of_find? hfound
        rw [Store.find?_save hsave, hid]
      rw [hmake]
      constructor
      case result_eq => rw [hrecord, htake]
      case record_eq =>
        intro key
        show (keys.get? key).bind store.find? = _
        rw [hrecord, htake]
        by_cases heq : key = s.policy
        · rw [if_pos heq, heq, hkey, Option.bind_some, hfind, if_pos rfl]
        · rw [if_neg heq, recordOf?]
          cases hother : keys.get? key with
          | none => rfl
          | some other =>
            -- another key stands for another identifier, so the saved record is not its own
            have hne : other ≠ id := fun hid => heq (h.injective (hid ▸ hother) hkey)
            rw [Option.bind_some, Option.bind_some, hfind, if_neg hne]
      case kept =>
        refine ⟨h.injective, fun {_ other} hother => ?_⟩
        show ∃ r, store.find? other = some r ∧ _
        rw [hfind]
        -- the saved record has one lawful transition more, the others are those of before
        by_cases hid : other = id
        · obtain ⟨action, roles, -, -, ht⟩ := judge_eq_ok hjudge
          exact ⟨_, if_pos hid, hhistory.advance ht⟩
        · rw [if_neg hid]
          exact h.recorded hother
      case ids_eq => exact Store.map_id_of_save hsave
      case uncached => exact fun _ => (Cache.get?_invalidate _ _ _).trans (if_pos rfl)

theorem Step.Makes.reached {result : Except StepFailure Progress} {next : Book σ}
    (h : s.Makes office keys now book result next) {progress : Progress}
    (hok : result = .ok progress) :
    ∃ r, recordOf? keys next s.policy = some r ∧ 1 ≤ progress.version ∧
      progress.version ≤ r.version := by
  have hresult := h.result_eq
  have hrecord := h.record_eq s.policy
  rw [if_pos rfl] at hrecord
  cases hbefore : recordOf? keys book s.policy with
  | none =>
    rw [hbefore, hok, takeOn_none] at hresult
    exact absurd hresult (by simp)
  | some r =>
    rw [hbefore] at hresult hrecord
    cases hjudge : s.judge office.table r.state now with
    | error failure =>
      rw [takeOn_of_error hjudge, hok] at hresult
      exact absurd hresult (by simp)
    | ok t =>
      rw [takeOn_of_ok hjudge] at hresult hrecord
      obtain rfl := Except.ok.inj (hok.symm.trans hresult)
      exact ⟨_, hrecord, Nat.le_add_left 1 r.version, Nat.le_refl _⟩

/-! ### Steps in a row -/

/-- What steps in a row do: for every key what following it does. -/
structure Follows (office : Office σ) (keys : Keys) (clock : Nat → Instant)
    (steps : List (Step × Nat)) (book : Book σ) (outcomes : List Outcome) (after : Book σ) :
    Prop where
  outcomes_eq : ∀ key, outcomesOn key outcomes =
    (follow office.table clock (stepsOn key steps) (recordOf? keys book key)).1
  record_eq : ∀ key, recordOf? keys after key =
    (follow office.table clock (stepsOn key steps) (recordOf? keys book key)).2
  kept : AreKept office.table keys after
  ids_eq : after.store.records.map Record.id = book.store.records.map Record.id
  uncached : book.cache.get? office.dashboardKey = none →
    after.cache.get? office.dashboardKey = none

theorem makeAll_cons (office : Office σ) (keys : Keys) (clock : Nat → Instant) (made : Nat)
    (s : Step) (rest : List Step) (book : Book σ) :
    let first := s.make office keys (clock made) book
    let others := makeAll office keys clock (made + 1) rest first.2
    makeAll office keys clock made (s :: rest) book =
      (⟨made, s.policy, s.action, first.1⟩ :: others.1, others.2) := rfl

theorem follow_cons (table : Table) (clock : Nat → Instant) (s : Step × Nat)
    (rest : List (Step × Nat)) (r : Option Record) :
    let first := s.1.takeOn table (clock s.2) r
    let others := follow table clock rest first.2
    follow table clock (s :: rest) r =
      (⟨s.2, s.1.policy, s.1.action, first.1⟩ :: others.1, others.2) := rfl

theorem makeAll_follows (office : Office σ) (clock : Nat → Instant) {book : Book σ}
    (h : AreKept office.table keys book) (steps : List Step) (made : Nat) :
    Follows office keys clock (steps.zipIdx made) book
      (makeAll office keys clock made steps book).1
      (makeAll office keys clock made steps book).2 := by
  induction steps generalizing made book with
  | nil => exact ⟨fun _ => rfl, fun _ => rfl, h, rfl, id⟩
  | cons s rest ih =>
    have hfirst := s.makes h (clock made)
    have hrest := ih hfirst.kept (made + 1)
    rw [makeAll_cons, List.zipIdx_cons]
    -- a step belongs to the steps on its own policy and leaves other records alone
    have hon (key) (heq : s.policy = key) : stepsOn key ((s, made) :: rest.zipIdx (made + 1)) =
        (s, made) :: stepsOn key (rest.zipIdx (made + 1)) :=
      List.filter_cons_of_pos (by simpa using heq)
    have hoff (key) (hne : s.policy ≠ key) : stepsOn key ((s, made) :: rest.zipIdx (made + 1)) =
        stepsOn key (rest.zipIdx (made + 1)) :=
      List.filter_cons_of_neg (by simpa using hne)
    constructor
    case outcomes_eq =>
      intro key
      by_cases heq : s.policy = key
      · rw [outcomesOn, List.filter_cons_of_pos (by simpa using heq), ← outcomesOn, hon key heq,
          follow_cons, hrest.outcomes_eq, hfirst.record_eq, if_pos heq.symm, ← heq,
          hfirst.result_eq]
      · rw [outcomesOn, List.filter_cons_of_neg (by simpa using heq), ← outcomesOn, hoff key heq,
          hrest.outcomes_eq, hfirst.record_eq, if_neg (Ne.symm heq)]
    case record_eq =>
      intro key
      by_cases heq : s.policy = key
      · rw [hon key heq, follow_cons, hrest.record_eq, hfirst.record_eq, if_pos heq.symm, ← heq]
      · rw [hoff key heq, hrest.record_eq, hfirst.record_eq, if_neg (Ne.symm heq)]
    case kept => exact hrest.kept
    case ids_eq => exact hrest.ids_eq.trans hfirst.ids_eq
    case uncached => exact fun hnone => hrest.uncached (hfirst.uncached hnone)

theorem makeAll_shown (office : Office σ) (keys : Keys) (clock : Nat → Instant) (made : Nat)
    (steps : List Step) (book : Book σ) :
    (makeAll office keys clock made steps book).1.map (fun o => (o.index, o.policy, o.action)) =
      (steps.zipIdx made).map fun s => (s.2, s.1.policy, s.1.action) := by
  induction steps generalizing made book with
  | nil => rfl
  | cons s rest ih =>
    rw [makeAll_cons, List.zipIdx_cons, List.map_cons, List.map_cons, ih]

theorem makeAll_append (office : Office σ) (keys : Keys) (clock : Nat → Instant) (made : Nat)
    (steps more : List Step) (book : Book σ) :
    let first := makeAll office keys clock made steps book
    let others := makeAll office keys clock (made + steps.length) more first.2
    makeAll office keys clock made (steps ++ more) book = (first.1 ++ others.1, others.2) := by
  induction steps generalizing made book with
  | nil => rfl
  | cons s rest ih =>
    intro first others
    have hlength : made + (s :: rest).length = made + 1 + rest.length := by
      rw [List.length_cons]
      omega
    simp only [List.cons_append, makeAll_cons, ih, first, others, hlength]

/-! ### The record that is followed -/

theorem follow_none (table : Table) (clock : Nat → Instant) (steps : List (Step × Nat)) :
    follow table clock steps none =
      (steps.map fun s =>
        ⟨s.2, s.1.policy, s.1.action, .error (.undeclared s.1.policy)⟩, none) := by
  induction steps with
  | nil => rfl
  | cons s rest ih =>
    rw [follow_cons, Step.takeOn_none, ih]
    rfl

/-- A transition was made by a step with this outcome. -/
def MadeBy (table : Table) (clock : Nat → Instant) (steps : List (Step × Nat)) (o : Outcome)
    (t : Transition) : Prop :=
  ∃ s, (s, o.index) ∈ steps ∧ s.judge table t.source (clock o.index) = .ok t

theorem MadeBy.mono {steps more : List (Step × Nat)} (h : steps ⊆ more) (o : Outcome)
    (t : Transition) : MadeBy table clock steps o t → MadeBy table clock more o t :=
  fun ⟨s, hmem, hjudge⟩ => ⟨s, h hmem, hjudge⟩

/-- What has become of a record on which steps were made one after the other. -/
structure Grows (table : Table) (clock : Nat → Instant) (steps : List (Step × Nat)) (r : Record)
    (outcomes : List Outcome) (changes : List Transition) : Prop where
  /-- The steps that were made reported where the transitions lead, under ascending versions. -/
  progress_eq : outcomes.filterMap Outcome.progress? =
    (changes.zipIdx (r.version + 1)).map fun t => ⟨t.1.target, t.2⟩
  made : List.Forall₂ (MadeBy table clock steps) (outcomes.filter Outcome.succeeded) changes

theorem follow_grows (table : Table) (clock : Nat → Instant) (steps : List (Step × Nat))
    (r : Record) :
    ∃ changes, (follow table clock steps (some r)).2 = some (changes.foldl Record.advance r) ∧
      Grows table clock steps r (follow table clock steps (some r)).1 changes := by
  induction steps generalizing r with
  | nil => exact ⟨[], rfl, rfl, .nil⟩
  | cons s rest ih =>
    have hmore : ∀ o t, MadeBy table clock rest o t → MadeBy table clock (s :: rest) o t :=
      MadeBy.mono (List.subset_cons_self s rest)
    rw [follow_cons]
    cases hjudge : s.1.judge table r.state (clock s.2) with
    | error failure =>
      obtain ⟨changes, hlast, hgrows⟩ := ih r
      rw [Step.takeOn_of_error hjudge]
      exact ⟨changes, hlast, hgrows.progress_eq, hgrows.made.imp hmore⟩
    | ok t =>
      obtain ⟨changes, hlast, hgrows⟩ := ih (r.advance t)
      obtain ⟨_, _, -, -, ht⟩ := Step.judge_eq_ok hjudge
      obtain ⟨-, hsource, -⟩ := Table.lawful_of_transition ht
      rw [Step.takeOn_of_ok hjudge]
      refine ⟨t :: changes, hlast, ?_, ?_⟩
      · show Progress.ofRecord (r.advance t) :: List.filterMap Outcome.progress? _ = _
        rw [hgrows.progress_eq, List.zipIdx_cons, List.map_cons]
        rfl
      · -- the state in which the step was judged is the source of its transition
        rw [List.filter_cons_of_pos rfl]
        refine .cons ⟨s.1, List.mem_cons_self, ?_⟩ (hgrows.made.imp hmore)
        rw [hsource]
        exact hjudge

namespace Grows

variable {steps : List (Step × Nat)} {r : Record} {outcomes : List Outcome}
  {changes : List Transition}

theorem ofRecord_eq (h : Grows table clock steps r outcomes changes) :
    Progress.ofRecord (changes.foldl Record.advance r) =
      (outcomes.filterMap Outcome.progress?).getLast?.getD (.ofRecord r) := by
  rw [h.progress_eq]
  clear h
  -- state and version of the record are those behind its last transition
  rcases List.eq_nil_or_concat changes with rfl | ⟨earlier, t, rfl⟩
  · rfl
  · have hversion := Record.version_foldl_advance r earlier
    rw [List.concat_eq_append, List.foldl_append, List.zipIdx_append, List.map_append]
    show (⟨t.target, (earlier.foldl Record.advance r).version + 1⟩ : Progress) =
      ((_ ++ [_]).getLast?).getD _
    rw [List.getLast?_concat, hversion]
    show _ = (⟨t.target, r.version + 1 + earlier.length⟩ : Progress)
    congr 1
    omega

end Grows

end PolicyBook.Scenario
