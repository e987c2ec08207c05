import PolicyBook.Proofs.Freshness
import PolicyBook.Proofs.Interleaving.Alone
import PolicyBook.Proofs.Interleaving.Effects
/-!
Calls do all that they are for, or nothing.

A call that fails leaves the book as it is, whatever others do to it in the meantime. A call that
succeeds changes the book at a few moments of its own, and each of these changes has a frame: one
record is stored, then the cached dashboard is dropped, then one event is published, and nothing
else is touched. Which of these changes a call makes depends on its kind alone. What only looks
something up makes none of them.

* **`Book.Stores`**, **`Book.Drops`**, **`Book.Tells`** — the three changes with their frames;
* **`Run.applied`**, **`Run.created`**, **`Run.announced`** — when a successful call makes which;
* **`Run.isAllOrNothing`** — all of this for every call of every run.
-/
namespace PolicyBook

open Policy

variable {σ : Type}

/-! ### Changes of a book -/

/-- One record is stored, and nothing else is touched. -/
structure Book.Stores (book : Book σ) (r : Record) (after : Book σ) : Prop where
  record : after.store.find? r.id = some r
  others : ∀ id, id ≠ r.id → after.store.find? id = book.store.find? id
  cache : after.cache = book.cache
  published : after.published = book.published
  desk : after.desk = book.desk

/-- The value of one key is dropped from the cache, and nothing else is touched. -/
structure Book.Drops (book : Book σ) (key : String) (after : Book σ) : Prop where
  dropped : after.cache.get? key = none
  generation : after.cache.generation key = book.cache.generation key + 1
  others : ∀ other, other ≠ key → after.cache.get? other = book.cache.get? other ∧
    after.cache.generation other = book.cache.generation other
  store : after.store = book.store
  published : after.published = book.published
  desk : after.desk = book.desk

/-- One event is published, and nothing else is touched. -/
structure Book.Tells (book : Book σ) (event : Event) (after : Book σ) : Prop where
  published : after.published = book.published ++ [event]
  store : after.store = book.store
  cache : after.cache = book.cache

theorem Office.invalidate_drops (office : Office σ) (book : Book σ) :
    book.Drops office.dashboardKey (office.invalidate book) where
  dropped := by
    show (book.cache.invalidate office.dashboardKey).get? _ = none
    rw [Cache.get?_invalidate, if_pos rfl]
  generation := by
    show (book.cache.invalidate office.dashboardKey).generation _ = _
    rw [Cache.generation_invalidate, if_pos rfl]
  others other hne := by
    show (book.cache.invalidate office.dashboardKey).get? other = _ ∧
      (book.cache.invalidate office.dashboardKey).generation other = _
    rw [Cache.get?_invalidate, Cache.generation_invalidate, if_neg hne, if_neg hne]
    exact ⟨rfl, rfl⟩
  store := rfl
  published := rfl
  desk := rfl

theorem Office.publish_tells (office : Office σ) (event : Event) (book : Book σ) :
    book.Tells event (office.publish event book) := ⟨rfl, rfl, rfl⟩

namespace Operation

variable {office : Office σ} {book after : Book σ}

theorem Effect.stores_kept {r kept : Record} {change : Transition}
    (h : Effect office book (apply (.judged r change)) (apply (.saved kept change)) after) :
    book.Stores kept after := by
  cases h with
  | looks _ hcommitted => exact absurd trivial hcommitted
  | saves save =>
    have hid : kept.id = r.id := by
      obtain ⟨_, -, -, rfl⟩ := Store.save_eq_ok save
      rfl
    refine ⟨?_, fun id hne => ?_, rfl, rfl, rfl⟩
    · rw [Store.find?_save save, if_pos hid]
    · rw [Store.find?_save save, if_neg (hid ▸ hne)]

theorem Effect.stores_draft {draft : Record}
    (h : Effect office book (create (.asked draft)) (create (.inserted draft)) after) :
    book.Stores draft after := by
  cases h with
  | looks _ hcommitted => exact absurd trivial hcommitted
  | inserts insert =>
    refine ⟨?_, fun id hne => ?_, rfl, rfl, rfl⟩
    · rw [Store.find?_insert insert, if_pos rfl]
    · rw [Store.find?_insert insert, if_neg hne]

end Operation

namespace Run

variable {run : Run σ}

/-- The steps of a call before a moment change the book at the given moments at most. -/
def ChangesOnlyAt (run : Run σ) (t i : Nat) (moments : List Nat) : Prop :=
  ∀ u < t, run.schedule u = i → u ∉ moments → run.book (u + 1) = run.book u

/-- A call makes one step at every stage, so it changes the book at no other moments than those at
which it was at the stages of changes. -/
theorem changesOnlyAt_of_stages {i : Nat} {moments : List Nat}
    (hown : ∀ m ∈ moments, run.schedule m = i)
    (hstages : ∀ u, (run.operation u i).IsChanging →
      ∃ m ∈ moments, (run.operation m i).stage = (run.operation u i).stage ∧
        (run.operation m i).stage < 5) (t : Nat) : run.ChangesOnlyAt t i moments := by
  intro u _ hi hnot
  have heffect := effect_at hi
  refine heffect.book_eq_of_not_isChanging fun hchanging => hnot ?_
  obtain ⟨m, hm, hstage, hlt⟩ := hstages u hchanging
  obtain rfl := moment_unique (hown m hm) hi hstage hlt
  exact hm

/-- What a call has done that answers a record after a transition. -/
structure Applied (run : Run σ) (t i : Nat) (r : Record) (request : Request) (change : Transition)
    (s d p : Nat) : Prop where
  asked : run.calls i = .apply request
  /-- The record was stored, then the dashboard was dropped, then the event was published. -/
  inOrder : s < d ∧ d < p ∧ p < t
  own : run.schedule s = i ∧ run.schedule d = i ∧ run.schedule p = i
  /-- The table lets the transition through, and the record took it on. -/
  took : ∃ stored, (run.book s).store.find? request.policy = some stored ∧
    run.office.table.transition stored.state request.action request.roles request.reason
      request.now = .ok change ∧ Record.Took stored change r
  stores : (run.book s).Stores r (run.book (s + 1))
  drops : (run.book d).Drops run.office.dashboardKey (run.book (d + 1))
  /-- The event tells of the transition as the answered record shows it. -/
  tells : ∃ event : Event, (run.book p).Tells event (run.book (p + 1)) ∧
    event.TellsOf r change r.version
  only : run.ChangesOnlyAt t i [s, d, p]

theorem changesOnlyAt_apply {i s d p : Nat} {before r r' : Record}
    {change change' change'' : Transition} (his : run.schedule s = i)
    (hops : run.operation s i = .apply (.judged before change)) (hid : run.schedule d = i)
    (hopd : run.operation d i = .apply (.saved r change')) (hip : run.schedule p = i)
    (hopp : run.operation p i = .apply (.invalidated r' change'')) (t : Nat) :
    run.ChangesOnlyAt t i [s, d, p] := by
  refine changesOnlyAt_of_stages (by simp [his, hid, hip]) (fun u hchanging => ?_) t
  have hfamily := family_eq_of_operation hops u
  cases hop : run.operation u i with
  | create | dashboard | announce =>
    rw [hop] at hfamily
    exact absurd hfamily (by simp [Operation.family])
  | apply progress =>
    rw [hop] at hchanging
    cases progress with
    | judged => exact ⟨s, by simp, by simp [hops, Operation.stage]⟩
    | saved => exact ⟨d, by simp, by simp [hopd, Operation.stage]⟩
    | invalidated => exact ⟨p, by simp, by simp [hopp, Operation.stage]⟩
    | asked | loaded | finished => exact hchanging.elim

theorem applied {t i : Nat} {r : Record} (h : run.operation t i = .apply (.finished (.ok r))) :
    ∃ request change s d p, run.Applied t i r request change s d p := by
  obtain ⟨p, hp, hip, change, hopp⟩ := told_of_finished h
  obtain ⟨d, hd, hid, hopd⟩ := dropped_of_invalidated hopp
  obtain ⟨s, hs, hw⟩ : ∃ s < d, run.write? s = some ⟨i, r, some change⟩ := by
    have horigin := run.origin d i
    rwa [hopd] at horigin
  obtain rfl : i = run.schedule s := call_eq_of_write hw
  obtain ⟨before, hops, hafter⟩ : ∃ before,
      run.operation s (run.schedule s) = .apply (.judged before change) ∧
        run.operation (s + 1) (run.schedule s) = .apply (.saved r change) := by
    rcases cases_of_write hw with ⟨before, change', hops, hafter, hchange, -⟩ | ⟨-, -, hnone, -⟩
    · obtain rfl := Option.some_inj.1 hchange
      exact ⟨before, hops, hafter⟩
    · exact absurd hnone (by simp)
  obtain ⟨request, stored, hcall, hfound, hjudged, -, hrecord⟩ := stored_of_write hw rfl
  obtain rfl : r = stored.advance change := hrecord
  refine ⟨request, change, s, d, p, hcall, ⟨hs, hd, hp⟩, ⟨rfl, hid, hip⟩,
    ⟨stored, hfound, hjudged, Record.took_advance stored change⟩, ?_, ?_, ?_, ?_⟩
  · have heffect := effect_at (rfl : run.schedule s = _)
    rw [hops, hafter] at heffect
    exact heffect.stores_kept
  · rw [book_succ, hid, hopd]
    exact run.office.invalidate_drops _
  · rw [book_succ, hip, hopp]
    exact ⟨_, run.office.publish_tells _ _, Event.tellsOf_ofTransition _ change _⟩
  · exact changesOnlyAt_apply rfl hops hid hopd hip hopp t

/-- What a call has done that answers a draft. -/
structure Created (run : Run σ) (t i : Nat) (r : Record) (s d : Nat) : Prop where
  /-- The record is the draft that was asked for. -/
  asked : ∃ id holder premium now, run.calls i = .create id holder premium now ∧
    r.IsDraft id holder premium now
  /-- The draft was stored, then the dashboard was dropped. -/
  inOrder : s < d ∧ d < t
  own : run.schedule s = i ∧ run.schedule d = i
  absent : (run.book s).store.find? r.id = none
  stores : (run.book s).Stores r (run.book (s + 1))
  drops : (run.book d).Drops run.office.dashboardKey (run.book (d + 1))
  only : run.ChangesOnlyAt t i [s, d]

theorem changesOnlyAt_create {i s d : Nat} {r r' : Record} (his : run.schedule s = i)
    (hops : run.operation s i = .create (.asked r)) (hid : run.schedule d = i)
    (hopd : run.operation d i = .create (.inserted r')) (t : Nat) :
    run.ChangesOnlyAt t i [s, d] := by
  refine changesOnlyAt_of_stages (by simp [his, hid]) (fun u hchanging => ?_) t
  have hfamily := family_eq_of_operation hops u
  cases hop : run.operation u i with
  | apply | dashboard | announce =>
    rw [hop] at hfamily
    exact absurd hfamily (by simp [Operation.family])
  | create progress =>
    rw [hop] at hchanging
    cases progress with
    | asked => exact ⟨s, by simp, by simp [hops, Operation.stage]⟩
    | inserted => exact ⟨d, by simp, by simp [hopd, Operation.stage]⟩
    | finished => exact hchanging.elim

theorem created {t i : Nat} {r : Record} (h : run.operation t i = .create (.finished (.ok r))) :
    ∃ s d, run.Created t i r s d := by
  obtain ⟨d, hd, hid, hopd⟩ := inserted_of_finished h
  obtain ⟨s, hs, hw⟩ : ∃ s < d, run.write? s = some ⟨i, r, none⟩ := by
    have horigin := run.origin d i
    rwa [hopd] at horigin
  obtain rfl : i = run.schedule s := call_eq_of_write hw
  obtain ⟨hops, hafter⟩ : run.operation s (run.schedule s) = .create (.asked r) ∧
      run.operation (s + 1) (run.schedule s) = .create (.inserted r) := by
    rcases cases_of_write hw with ⟨_, _, -, -, hsome, -⟩ | ⟨hops, hafter, -, -⟩
    · exact absurd hsome (by simp)
    · exact ⟨hops, hafter⟩
  have hasked : ∃ id holder premium now,
      run.calls (run.schedule s) = .create id holder premium now ∧
        r.IsDraft id holder premium now := by
    rcases call_of_write hw with ⟨-, id, holder, premium, now, hcall, hdraft⟩ | ⟨_, _, hsome, -⟩
    · have hdraft : r = .draft id holder premium now := hdraft
      exact ⟨id, holder, premium, now, hcall, hdraft ▸ Record.isDraft_draft id holder premium now⟩
    · exact absurd hsome (by simp)
  refine ⟨s, d, hasked, ⟨hs, hd⟩, ⟨rfl, hid⟩, absent_of_draft hw rfl, ?_, ?_, ?_⟩
  · have heffect := effect_at (rfl : run.schedule s = _)
    rw [hops, hafter] at heffect
    exact heffect.stores_draft
  · rw [book_succ, hid, hopd]
    exact run.office.invalidate_drops _
  · exact changesOnlyAt_create rfl hops hid hopd t

/-! ### Claims and proposals -/

/-- What a call has done that answers the progress of a claim or a proposal. -/
structure Announced (run : Run σ) (t i : Nat) (payload : Event.Payload) (p : Nat) : Prop where
  /-- This is what the call was to announce. -/
  asked : run.Announces t i payload
  own : p < t ∧ run.schedule p = i
  tells : (run.book p).Tells (.of payload) (run.book (p + 1))
  only : run.ChangesOnlyAt t i [p]

theorem changesOnlyAt_announce {i p : Nat} {payload : Event.Payload} (hip : run.schedule p = i)
    (hopp : run.operation p i = .announce (.worded payload)) (t : Nat) :
    run.ChangesOnlyAt t i [p] := by
  refine changesOnlyAt_of_stages (by simp [hip]) (fun u hchanging => ?_) t
  have hfamily := family_eq_of_operation hopp u
  cases hop : run.operation u i with
  | apply | create | dashboard =>
    rw [hop] at hfamily
    exact absurd hfamily (by simp [Operation.family])
  | announce progress =>
    rw [hop] at hchanging
    cases progress with
    | worded => exact ⟨p, by simp, by simp [hopp, Operation.stage]⟩
    | asked | finished => exact hchanging.elim

theorem announced {t i : Nat} {payload : Event.Payload}
    (h : run.operation t i = .announce (.finished (.ok payload))) :
    ∃ p, run.Announced t i payload p := by
  obtain ⟨p, hp, hip, hopp⟩ := worded_of_finished h
  have horigin := run.origin t i
  rw [h] at horigin
  refine ⟨p, horigin, ⟨hp, hip⟩, ?_, changesOnlyAt_announce hip hopp t⟩
  rw [book_succ, hip, hopp]
  exact run.office.publish_tells _ _

end Run

/-! ### Looking something up -/

inductive Inquiry where
  | policy (id : PolicyId)
  | history (id : PolicyId)
  | actions (id : PolicyId) (roles : RoleSet)
  | holding (holder : HolderId)

inductive Inquiry.Answer where
  | policy (r : Record)
  | history (changes : List Transition)
  | actions (found : List Action)
  | holding (figures : Holding)

/-- Look something up; there is no step in between. -/
def Office.inquire (office : Office σ) : Inquiry → Book σ → Except Failure Inquiry.Answer × Book σ
  | .policy id, book => ((record book id).map .policy, book)
  | .history id, book => ((record book id).map fun r => .history r.transitions, book)
  | .actions id roles, book => ((office.actions book id roles).map .actions, book)
  | .holding holder, book => (.ok (.holding (holding book holder)), book)

/-! ### All calls -/

namespace Run

variable {run : Run σ}

/-- What a call has done to the book before a moment, by what it answers. -/
structure IsAllOrNothing (run : Run σ) (t i : Nat) : Prop where
  /-- A call that fails has changed nothing. -/
  failed : (run.operation t i).HasFailed → run.ChangesOnlyAt t i []
  /-- A call that answers a record after a transition has stored it, dropped the dashboard and
  published the transition, in this order. -/
  applied : ∀ r, run.operation t i = .apply (.finished (.ok r)) →
    ∃ request change s d p, run.Applied t i r request change s d p
  /-- A call that answers a draft has stored it, dropped the dashboard and published nothing. -/
  created : ∀ r, run.operation t i = .create (.finished (.ok r)) → ∃ s d, run.Created t i r s d
  /-- A call that answers the progress of a claim or a proposal has published it. -/
  announced : ∀ payload, run.operation t i = .announce (.finished (.ok payload)) →
    ∃ p, run.Announced t i payload p
  /-- Looking something up changes nothing, whether it is found or not. -/
  inquired : ∀ inquiry, (run.office.inquire inquiry (run.book t)).2 = run.book t
  /-- With its fifth step, if not before, a call is finished. -/
  returns : 5 ≤ (List.range t).countP (fun u => run.schedule u = i) →
    (run.operation t i).stage = 5
  /-- A call that nobody interrupts does what it does as a whole. -/
  alone : run.operation t i = (run.calls i).begin →
    (∀ u, t ≤ u → u < t + 5 → run.schedule u = i) →
      (run.operation (t + 5) i, run.book (t + 5)) =
        (run.calls i).alone run.office (run.book t)

/-- Every call of every run does all that it is for, or nothing. -/
theorem isAllOrNothing (run : Run σ) (t i : Nat) : run.IsAllOrNothing t i where
  failed hfailed _ hu hi _ := book_of_failed hfailed hu hi
  applied _ h := run.applied h
  created _ h := run.created h
  announced _ h := run.announced h
  inquired inquiry := by cases inquiry <;> rfl
  returns hcount := by
    have hle := run.count_le_stage t i
    have hmax := (run.operation t i).stage_le
    omega
  alone hop halone := Run.alone hop halone

end Run

end PolicyBook
