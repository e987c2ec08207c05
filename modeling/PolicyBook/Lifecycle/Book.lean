import PolicyBook.Cache
import PolicyBook.Dispatch
import PolicyBook.Lifecycle.Failure
/-!
The policy book: everything that operations on policies share and change.

Operations are carried out by an `Office`, which itself never changes. They proceed in steps, each
of which reads or changes the book at once; between the steps of one operation any number of steps
of others may happen. Every operation is therefore described twice: by its steps, and by what it
does when nothing comes in between.
-/
namespace PolicyBook

open Policy Dispatch

/-- What operations share. The listeners of events keep a state of type `σ`. -/
structure Book (σ : Type) where
  store : Store
  cache : Cache
  /-- The events published so far, oldest first. -/
  published : List Event
  desk : σ

structure Office (σ : Type) where
  table : Table
  dashboardKey : String
  dispatcher : Dispatcher σ

variable {σ : Type}

def Book.new (desk : σ) : Book σ := ⟨.empty, .empty, [], desk⟩

namespace Office

/-- Publish an event: all its listeners are called. What there is to report of the calls stays with
the dispatcher, so it makes no difference here how long they take. -/
def publish (office : Office σ) (event : Event) (book : Book σ) : Book σ :=
  { book with
    published := book.published ++ [event]
    desk := (office.dispatcher.publish event atOnce book.desk).2 }

/-- Announce that the records have changed: the cached dashboard is dropped. -/
def invalidate (office : Office σ) (book : Book σ) : Book σ :=
  { book with cache := book.cache.invalidate office.dashboardKey }

def record (book : Book σ) (policy : PolicyId) : Except Failure Record :=
  (book.store.load policy).mapError Failure.store

/-- The actions that some of the roles may ask for on a policy now. -/
def actions (office : Office σ) (book : Book σ) (policy : PolicyId) (roles : RoleSet) :
    Except Failure (List Action) := do
  let r ← record book policy
  return office.table.actions r.state roles

def description (office : Office σ) : String :=
  s!"PolicyLifecycleService \x7b rules: {office.table.rules.length}, " ++
    s!"dashboard_key: {Text.quoted office.dashboardKey}, " ++
    s!"dispatcher: {office.dispatcher.description} \x7d"

end Office

end PolicyBook
