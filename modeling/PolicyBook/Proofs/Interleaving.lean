import PolicyBook.Lifecycle.Announce
import PolicyBook.Lifecycle.Apply
import PolicyBook.Lifecycle.Create
import PolicyBook.Lifecycle.Figures
/-!
Runs: calls of one office that share a book and take their steps in any order.

A `Call` says what is asked for, an `Operation` how far it has got. A `Run` has a call for every
number, a book to begin with, and a schedule that names the call whose step comes next;
`Run.operation` and `Run.book` are what there is after so many steps. A step of a call that is
finished changes nothing, so a run of finitely many calls and steps is the beginning of a run.

What a run does to the store is told by its writes:

* **`Run.cases_of_write`**, **`Run.store_of_no_write`** — a step writes a draft, writes a record
  after a transition, or leaves the store as it is;
* **`Run.moment_unique`** — a call makes one step at every stage;
* **`Run.keeps_of_write`**, **`Run.finished_of_le`** — what a call wrote is what it answers, and an
  answer stays.
-/
namespace PolicyBook

open Policy

variable {σ : Type}

/-! ### Calls and operations -/

inductive Announce where
  /-- A claim is to be handed in, and its policy was not yet looked up. -/
  | asked (claim : ClaimId) (policy : PolicyId)
  | worded (payload : Event.Payload)
  /-- The event was published, or the operation failed. -/
  | finished (result : Except Failure Event.Payload)

def Announce.step (office : Office σ) : Announce → Book σ → Announce × Book σ
  | asked claim policy, book =>
    match Office.record book policy with
    | .ok r => (worded (.claim ⟨claim, r.holder, .submitted policy⟩), book)
    | .error failure => (finished (.error failure), book)
  | worded payload, book => (finished (.ok payload), office.publish (.of payload) book)
  | finished result, book => (finished result, book)

inductive Call where
  | create (id : PolicyId) (holder : HolderId) (premium : Nat) (now : Instant)
  | apply (request : Request)
  | dashboard
  | submitClaim (claim : ClaimId) (policy : PolicyId)
  | approveClaim (claim : ClaimId) (claimant : HolderId)
  | rejectClaim (claim : ClaimId) (claimant : HolderId) (reason : String)
  | settleClaim (claim : ClaimId) (claimant : HolderId) (amount : Nat)
  | createProposal (proposal : ProposalId) (creator : HolderId) (title : String)
  | finalizeProposal (proposal : ProposalId) (creator : HolderId) (passed : Bool)

/-- A call under way. -/
inductive Operation where
  | apply (progress : Apply)
  | create (progress : Create)
  | dashboard (progress : DashboardQuery)
  | announce (progress : Announce)

def Call.begin : Call → Operation
  | create id holder premium now => .create (.asked (.draft id holder premium now))
  | apply request => .apply (.asked request)
  | dashboard => .dashboard .asked
  | submitClaim claim policy => .announce (.asked claim policy)
  | approveClaim claim claimant => .announce (.worded (.claim ⟨claim, claimant, .approved⟩))
  | rejectClaim claim claimant reason =>
    .announce (.worded (.claim ⟨claim, claimant, .rejected (Text.trim reason)⟩))
  | settleClaim claim claimant amount =>
    .announce (.worded (.claim ⟨claim, claimant, .settled amount⟩))
  | createProposal proposal creator title =>
    .announce (.worded (.proposal ⟨proposal, creator, .created title⟩))
  | finalizeProposal proposal creator passed =>
    .announce (.worded (.proposal ⟨proposal, creator, .finalized passed⟩))

/-- A record that was written into the store. -/
structure Write where
  call : Nat
  record : Record
  /-- The transition behind which it stands; a draft has none. -/
  change : Option Transition

namespace Operation

def step (office : Office σ) : Operation → Book σ → Operation × Book σ
  | apply progress, book => (apply (progress.step office book).1, (progress.step office book).2)
  | create progress, book => (create (progress.step office book).1, (progress.step office book).2)
  | dashboard progress, book =>
    (dashboard (progress.step office book).1, (progress.step office book).2)
  | announce progress, book =>
    (announce (progress.step office book).1, (progress.step office book).2)

/-- The number of the stage that an operation has reached; five when it is finished. -/
def stage : Operation → Nat
  | apply (.asked _) => 0
  | apply (.loaded ..) => 1
  | apply (.judged ..) => 2
  | apply (.saved ..) => 3
  | apply (.invalidated ..) => 4
  | create (.asked _) => 0
  | create (.inserted _) => 1
  | dashboard .asked => 0
  | dashboard (.observed _) => 1
  | dashboard (.missed _) => 2
  | dashboard (.listed ..) => 3
  | announce (.asked ..) => 0
  | announce (.worded _) => 1
  | apply (.finished _) | create (.finished _) | dashboard (.finished _)
  | announce (.finished _) => 5

theorem stage_le (op : Operation) : op.stage ≤ 5 := by
  rcases op with progress | progress | progress | progress <;> cases progress <;> simp [stage]

theorem stage_step (office : Office σ) (op : Operation) (book : Book σ) :
    op.stage < (op.step office book).1.stage ∨ op.stage = 5 ∧ op.step office book = (op, book) := by
  -- every stage leads to a later one; only a finished operation makes no progress
  rcases op with progress | progress | progress | progress
  · cases progress with
    | asked request =>
      left
      simp only [step, Apply.step]
      split <;> simp [stage]
    | loaded request r =>
      left
      simp only [step, Apply.step]
      split <;> simp [stage]
    | judged r t =>
      left
      simp only [step, Apply.step]
      split <;> simp [stage]
    | saved r t => exact .inl (by simp [step, Apply.step, stage])
    | invalidated r t => exact .inl (by simp [step, Apply.step, stage])
    | finished result => exact .inr ⟨rfl, rfl⟩
  · cases progress with
    | asked draft =>
      left
      simp only [step, Create.step]
      split <;> simp [stage]
    | inserted draft => exact .inl (by simp [step, Create.step, stage])
    | finished result => exact .inr ⟨rfl, rfl⟩
  · cases progress with
    | asked => exact .inl (by simp [step, DashboardQuery.step, stage])
    | observed generation =>
      left
      simp only [step, DashboardQuery.step]
      split <;> simp [stage]
    | missed generation => exact .inl (by simp [step, DashboardQuery.step, stage])
    | listed generation records => exact .inl (by simp [step, DashboardQuery.step, stage])
    | finished dashboard => exact .inr ⟨rfl, rfl⟩
  · cases progress with
    | asked claim policy =>
      left
      simp only [step, Announce.step]
      split <;> simp [stage]
    | worded payload => exact .inl (by simp [step, Announce.step, stage])
    | finished result => exact .inr ⟨rfl, rfl⟩

/-- What the step from one operation to the next has written into the store: a record, and the
transition if it was not a draft. -/
def written? : Operation → Operation → Option (Record × Option Transition)
  | apply (.judged _ _), apply (.saved kept t) => some (kept, some t)
  | create (.asked _), create (.inserted draft) => some (draft, none)
  | _, _ => none

/-- The operation of a call that has written goes on to answer what it wrote. -/
def Keeps (w : Write) : Operation → Prop
  | apply (.saved kept change) | apply (.invalidated kept change) =>
    w.record = kept ∧ w.change = some change
  | apply (.finished (.ok kept)) => w.record = kept ∧ w.change.isSome
  | create (.inserted draft) | create (.finished (.ok draft)) =>
    w.record = draft ∧ w.change = none
  | _ => False

theorem store_step (office : Office σ) (op : Operation) (book : Book σ) :
    (written? op (op.step office book).1 = none ∧ (op.step office book).2.store = book.store) ∨
    (∃ r t kept, op = apply (.judged r t) ∧ (op.step office book).1 = apply (.saved kept t) ∧
      book.store.save r = .ok (kept, (op.step office book).2.store)) ∨
    (∃ draft, op = create (.asked draft) ∧ (op.step office book).1 = create (.inserted draft) ∧
      book.store.insert draft = .ok (op.step office book).2.store) := by
  -- only the save of a transition and the insertion of a draft touch the store
  rcases op with progress | progress | progress | progress
  · cases progress with
    | judged r t =>
      cases hsave : book.store.save r with
      | error fault => exact .inl (by simp [step, Apply.step, hsave, written?])
      | ok saved =>
        obtain ⟨kept, store⟩ := saved
        exact .inr (.inl ⟨r, t, kept, rfl, by simp [step, Apply.step, hsave]⟩)
    | asked request =>
      left
      simp only [step, Apply.step]
      split <;> exact ⟨rfl, rfl⟩
    | loaded request r =>
      left
      simp only [step, Apply.step]
      split <;> exact ⟨rfl, rfl⟩
    | saved r t => exact .inl ⟨rfl, rfl⟩
    | invalidated r t => exact .inl ⟨rfl, rfl⟩
    | finished result => exact .inl ⟨rfl, rfl⟩
  · cases progress with
    | asked draft =>
      cases hinsert : book.store.insert draft with
      | error fault => exact .inl (by simp [step, Create.step, hinsert, written?])
      | ok store => exact .inr (.inr ⟨draft, rfl, by simp [step, Create.step, hinsert]⟩)
    | inserted draft => exact .inl ⟨rfl, rfl⟩
    | finished result => exact .inl ⟨rfl, rfl⟩
  · left
    cases progress with
    | observed generation =>
      simp only [step, DashboardQuery.step]
      split <;> exact ⟨rfl, rfl⟩
    | asked => exact ⟨rfl, rfl⟩
    | missed generation => exact ⟨rfl, rfl⟩
    | listed generation records => exact ⟨rfl, rfl⟩
    | finished dashboard => exact ⟨rfl, rfl⟩
  · left
    cases progress with
    | asked claim policy =>
      simp only [step, Announce.step]
      split <;> exact ⟨rfl, rfl⟩
    | worded payload => exact ⟨rfl, rfl⟩
    | finished result => exact ⟨rfl, rfl⟩

end Operation

/-! ### Runs -/

/-- Calls of one office on one book, with a schedule for their steps. -/
structure Run (σ : Type) where
  office : Office σ
  calls : Nat → Call
  start : Book σ
  /-- The call that makes the step at a moment. -/
  schedule : Nat → Nat

namespace Run

variable (run : Run σ)

def after : Nat → (Nat → Operation) × Book σ
  | 0 => (fun i => (run.calls i).begin, run.start)
  | t + 1 =>
    let i := run.schedule t
    let result := ((after t).1 i).step run.office (after t).2
    (fun j => if j = i then result.1 else (after t).1 j, result.2)

/-- How far a call has got after so many steps. -/
def operation (t i : Nat) : Operation := (run.after t).1 i

def book (t : Nat) : Book σ := (run.after t).2

def write? (t : Nat) : Option Write :=
  ((run.operation t (run.schedule t)).written? (run.operation (t + 1) (run.schedule t))).map
    fun written => ⟨run.schedule t, written.1, written.2⟩

variable {run}

theorem operation_succ_self {t i : Nat} (h : run.schedule t = i) :
    run.operation (t + 1) i = ((run.operation t i).step run.office (run.book t)).1 := by
  subst h
  exact if_pos rfl

theorem operation_succ_of_ne {t i : Nat} (h : run.schedule t ≠ i) :
    run.operation (t + 1) i = run.operation t i :=
  if_neg (Ne.symm h)

theorem book_succ (t : Nat) :
    run.book (t + 1) =
      ((run.operation t (run.schedule t)).step run.office (run.book t)).2 := rfl

theorem write?_eq {t i : Nat} (h : run.schedule t = i) :
    run.write? t = ((run.operation t i).written? (run.operation (t + 1) i)).map
      fun written => ⟨i, written.1, written.2⟩ := by
  subst h
  rfl

theorem call_eq_of_write {t : Nat} {w : Write} (h : run.write? t = some w) :
    w.call = run.schedule t := by
  obtain ⟨written, -, rfl⟩ := Option.map_eq_some_iff.1 h
  rfl

theorem write_cases (run : Run σ) (t : Nat) :
    (run.write? t = none ∧ (run.book (t + 1)).store = (run.book t).store) ∨
    (∃ i r change kept, run.schedule t = i ∧ run.operation t i = .apply (.judged r change) ∧
      run.operation (t + 1) i = .apply (.saved kept change) ∧
      run.write? t = some ⟨i, kept, some change⟩ ∧
      (run.book t).store.save r = .ok (kept, (run.book (t + 1)).store)) ∨
    (∃ i draft, run.schedule t = i ∧ run.operation t i = .create (.asked draft) ∧
      run.operation (t + 1) i = .create (.inserted draft) ∧
      run.write? t = some ⟨i, draft, none⟩ ∧
      (run.book t).store.insert draft = .ok (run.book (t + 1)).store) := by
  have hop : run.operation (t + 1) (run.schedule t) = _ := operation_succ_self rfl
  rw [book_succ, write?, hop]
  rcases Operation.store_step run.office (run.operation t (run.schedule t)) (run.book t) with
    ⟨hnone, hstore⟩ | ⟨r, change, kept, hbefore, hafter, hsave⟩ |
      ⟨draft, hbefore, hafter, hinsert⟩
  · exact .inl ⟨by rw [hnone]; rfl, hstore⟩
  · refine .inr (.inl ⟨run.schedule t, r, change, kept, rfl, hbefore, ?_, ?_, hsave⟩)
    · rw [hop, hafter]
    · rw [hafter, hbefore]
      rfl
  · refine .inr (.inr ⟨run.schedule t, draft, rfl, hbefore, ?_, ?_, hinsert⟩)
    · rw [hop, hafter]
    · rw [hafter, hbefore]
      rfl

theorem cases_of_write {t : Nat} {w : Write} (hw : run.write? t = some w) :
    (∃ r change, run.operation t w.call = .apply (.judged r change) ∧
      run.operation (t + 1) w.call = .apply (.saved w.record change) ∧ w.change = some change ∧
      (run.book t).store.save r = .ok (w.record, (run.book (t + 1)).store)) ∨
    (run.operation t w.call = .create (.asked w.record) ∧
      run.operation (t + 1) w.call = .create (.inserted w.record) ∧ w.change = none ∧
      (run.book t).store.insert w.record = .ok (run.book (t + 1)).store) := by
  rcases run.write_cases t with ⟨hnone, -⟩ |
    ⟨i, r, change, kept, -, hbefore, hafter, hsome, hsave⟩ |
      ⟨i, draft, -, hbefore, hafter, hsome, hinsert⟩
  · exact absurd (hnone.symm.trans hw) (by simp)
  · obtain rfl : _ = w := Option.some_inj.1 (hsome.symm.trans hw)
    exact .inl ⟨r, change, hbefore, hafter, rfl, hsave⟩
  · obtain rfl : _ = w := Option.some_inj.1 (hsome.symm.trans hw)
    exact .inr ⟨hbefore, hafter, rfl, hinsert⟩

theorem store_of_no_write {t : Nat} (h : run.write? t = none) :
    (run.book (t + 1)).store = (run.book t).store := by
  rcases run.write_cases t with ⟨-, hstore⟩ | ⟨_, _, _, _, -, -, -, hsome, -⟩ |
    ⟨_, _, -, -, -, hsome, -⟩
  · exact hstore
  · exact absurd (h.symm.trans hsome) (by simp)
  · exact absurd (h.symm.trans hsome) (by simp)

/-! ### What stays -/

theorem stage_le_succ (run : Run σ) (t i : Nat) :
    (run.operation t i).stage ≤ (run.operation (t + 1) i).stage := by
  by_cases h : run.schedule t = i
  · rw [operation_succ_self h]
    rcases (run.operation t i).stage_step run.office (run.book t) with hlt | ⟨-, heq⟩
    · exact Nat.le_of_lt hlt
    · exact Nat.le_of_eq (by rw [heq])
  · exact Nat.le_of_eq (by rw [operation_succ_of_ne h])

theorem stage_mono (run : Run σ) (i : Nat) {t u : Nat} (h : t ≤ u) :
    (run.operation t i).stage ≤ (run.operation u i).stage := by
  induction h with
  | refl => exact Nat.le_refl _
  | step _ ih => exact Nat.le_trans ih (run.stage_le_succ _ i)

theorem finished_of_le {t u i : Nat} (h : t ≤ u) (hfin : (run.operation t i).stage = 5) :
    run.operation u i = run.operation t i := by
  induction h with
  | refl => rfl
  | step hle ih =>
    rename_i m
    -- there is no stage behind the last one, so a step of the call itself changes nothing
    by_cases hi : run.schedule m = i
    · have hstage : (run.operation m i).stage = 5 := by rw [ih, hfin]
      rcases (run.operation m i).stage_step run.office (run.book m) with hlt | ⟨-, heq⟩
      · have hmax := ((run.operation m i).step run.office (run.book m)).1.stage_le
        omega
      · rw [operation_succ_self hi, heq, ih]
    · rw [operation_succ_of_ne hi, ih]

theorem stage_lt_succ {t i : Nat} (hi : run.schedule t = i) (h : (run.operation t i).stage < 5) :
    (run.operation t i).stage < (run.operation (t + 1) i).stage := by
  rw [operation_succ_self hi]
  rcases (run.operation t i).stage_step run.office (run.book t) with hlt | ⟨heq, -⟩
  · exact hlt
  · omega

/-- A call makes one step at every stage. -/
theorem moment_unique {a b i : Nat} (ha : run.schedule a = i) (hb : run.schedule b = i)
    (hstage : (run.operation a i).stage = (run.operation b i).stage)
    (hlt : (run.operation a i).stage < 5) : a = b := by
  rcases Nat.lt_trichotomy a b with hab | hab | hab
  · have h₁ := stage_lt_succ ha hlt
    have h₂ := run.stage_mono i (show a + 1 ≤ b from hab)
    omega
  · exact hab
  · have h₁ := stage_lt_succ hb (by omega)
    have h₂ := run.stage_mono i (show b + 1 ≤ a from hab)
    omega

/-- What a call wrote is what it answers. -/
theorem keeps_of_write {u m : Nat} {w : Write} (hw : run.write? u = some w) (hm : u < m) :
    (run.operation m w.call).Keeps w := by
  induction hm with
  | refl =>
    show (run.operation (u + 1) w.call).Keeps w
    rcases cases_of_write hw with ⟨r, change, -, hafter, hchange, -⟩ | ⟨-, hafter, hchange, -⟩
    all_goals
      rw [hafter]
      exact ⟨rfl, hchange⟩
  | step _ ih =>
    rename_i m _
    -- only its own steps move an operation, and from a write they lead to the answer
    by_cases hi : run.schedule m = w.call
    · rw [operation_succ_self hi]
      cases hop : run.operation m w.call with
      | apply progress =>
        rw [hop] at ih
        cases progress with
        | saved kept change => exact ih
        | invalidated kept change =>
          obtain ⟨hrecord, hchange⟩ := ih
          exact ⟨hrecord, by rw [hchange]; rfl⟩
        | finished result => exact ih
        | asked | loaded | judged => exact ih.elim
      | create progress =>
        rw [hop] at ih
        cases progress with
        | asked => exact ih.elim
        | inserted draft => exact ih
        | finished result => exact ih
      | dashboard progress | announce progress =>
        rw [hop] at ih
        exact ih.elim
    · rw [operation_succ_of_ne hi]
      exact ih

theorem not_keeps_of_write {t : Nat} {v w : Write} (hw : run.write? t = some w) :
    ¬(run.operation t w.call).Keeps v := by
  rcases cases_of_write hw with ⟨r, change, hop, -⟩ | ⟨hop, -⟩
  all_goals
    rw [hop]
    exact id

end Run

end PolicyBook
