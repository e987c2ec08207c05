import PolicyBook.Lifecycle.Book
/-!
Drafting a policy.

A draft is no transition, so nobody is told; but the records have changed, and the cached dashboard
is dropped.
-/
namespace PolicyBook

open Policy

/-- How far drafting a policy has got. -/
inductive Create where
  | asked (draft : Record)
  | inserted (draft : Record)
  /-- The cached dashboard was dropped, or the operation failed. -/
  | finished (result : Except Failure Record)

variable {σ : Type}

def Create.step (office : Office σ) : Create → Book σ → Create × Book σ
  | asked draft, book =>
    match book.store.insert draft with
    | .ok store => (inserted draft, { book with store })
    | .error fault => (finished (.error (.store fault)), book)
  | inserted draft, book => (finished (.ok draft), office.invalidate book)
  | finished result, book => (finished result, book)

/-- Draft a policy, nothing else happening. -/
def Office.create (office : Office σ) (id : PolicyId) (holder : HolderId) (premium : Nat)
    (now : Instant) (book : Book σ) : Except Failure Record × Book σ :=
  let draft := Record.draft id holder premium now
  match book.store.insert draft with
  | .error fault => (.error (.store fault), book)
  | .ok store => (.ok draft, office.invalidate { book with store })

end PolicyBook
