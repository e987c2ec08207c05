import PolicyBook.Lifecycle.Book
/-!
Making a transition.

The steps are: load the record, judge the request, save the record after the transition, drop the
cached dashboard, publish the event. The record is saved under the version at which it was loaded,
so of two operations that loaded the same version only one gets past saving.
-/
namespace PolicyBook

open Policy

structure Request where
  policy : PolicyId
  action : Action
  roles : RoleSet
  reason : Option String
  now : Instant
  deriving DecidableEq

/-- How far making a transition has got. -/
inductive Apply where
  | asked (request : Request)
  | loaded (request : Request) (record : Record)
  /-- The transition may be made; the record shows it and is not saved. -/
  | judged (record : Record) (transition : Transition)
  | saved (record : Record) (transition : Transition)
  | invalidated (record : Record) (transition : Transition)
  /-- The event was published, or the operation failed. -/
  | finished (result : Except Failure Record)

namespace Apply

variable {σ : Type}

def event (r : Record) (t : Transition) : Event :=
  .of (.policy (.ofTransition r.id r.holder t r.version))

def step (office : Office σ) : Apply → Book σ → Apply × Book σ
  | asked request, book =>
    match book.store.load request.policy with
    | .ok r => (loaded request r, book)
    | .error fault => (finished (.error (.store fault)), book)
  | loaded request r, book =>
    match office.table.transition r.state request.action request.roles request.reason
        request.now with
    | .ok t => (judged (r.apply t) t, book)
    | .error denial => (finished (.error (.denied denial)), book)
  | judged r t, book =>
    match book.store.save r with
    | .ok (kept, store) => (saved kept t, { book with store })
    | .error fault => (finished (.error (.store fault)), book)
  | saved r t, book => (invalidated r t, office.invalidate book)
  | invalidated r t, book => (finished (.ok r), office.publish (event r t) book)
  | finished result, book => (finished result, book)

/-- So many steps, nothing else happening in between. -/
def steps (office : Office σ) : Nat → Apply → Book σ → Apply × Book σ
  | 0, apply, book => (apply, book)
  | n + 1, apply, book =>
    let (apply, book) := apply.step office book
    apply.steps office n book

def result? : Apply → Option (Except Failure Record)
  | finished result => some result
  | _ => none

end Apply

/-- Make a transition, nothing else happening. -/
def Office.apply {σ : Type} (office : Office σ) (request : Request) (book : Book σ) :
    Except Failure Record × Book σ :=
  match book.store.load request.policy with
  | .error fault => (.error (.store fault), book)
  | .ok r =>
    match office.table.transition r.state request.action request.roles request.reason
        request.now with
    | .error denial => (.error (.denied denial), book)
    | .ok t =>
      match book.store.save (r.apply t) with
      | .error fault => (.error (.store fault), book)
      | .ok (kept, store) =>
        (.ok kept, office.publish (Apply.event kept t) (office.invalidate { book with store }))

theorem Apply.steps_asked {σ : Type} (office : Office σ) (request : Request) (book : Book σ) :
    (asked request).steps office 5 book =
      (finished (office.apply request book).1, (office.apply request book).2) := by
  unfold Office.apply
  cases hload : book.store.load request.policy with
  | error fault => simp [steps, step, hload]
  | ok r =>
    cases ht : office.table.transition r.state request.action request.roles request.reason
        request.now with
    | error denial => simp [steps, step, hload, ht]
    | ok t =>
      cases hsave : book.store.save (r.apply t) with
      | error fault => simp [steps, step, hload, ht, hsave]
      | ok saved => simp [steps, step, hload, ht, hsave]

end PolicyBook
