import PolicyBook.Lifecycle.Book
import PolicyBook.Rollup
/-!
Asking for figures.

The dashboard is served from the cache as long as no record has changed. Otherwise it is computed
from the records and cached under the generation that was read before, so that figures of records
that changed meanwhile are answered and not kept. A cached value that is no dashboard counts as
absent.
-/
namespace PolicyBook

open Policy

/-- How far asking for the dashboard has got. -/
inductive DashboardQuery where
  | asked
  /-- The generation of the key was read. -/
  | observed (generation : Nat)
  /-- The cache has no dashboard. -/
  | missed (generation : Nat)
  | listed (generation : Nat) (records : List Record)
  | finished (dashboard : Dashboard)

variable {σ : Type}

namespace Office

def cachedDashboard? (office : Office σ) (book : Book σ) : Option Dashboard :=
  (book.cache.get? office.dashboardKey).bind decode?

/-- Cache a dashboard that was computed at a generation. -/
def keep (office : Office σ) (generation : Nat) (dashboard : Dashboard) (book : Book σ) : Book σ :=
  { book with cache := book.cache.put office.dashboardKey (encode dashboard) generation }

end Office

namespace DashboardQuery

def step (office : Office σ) : DashboardQuery → Book σ → DashboardQuery × Book σ
  | asked, book => (observed (book.cache.generation office.dashboardKey), book)
  | observed generation, book =>
    match office.cachedDashboard? book with
    | some dashboard => (finished dashboard, book)
    | none => (missed generation, book)
  | missed generation, book => (listed generation book.store.list, book)
  | listed generation records, book =>
    let dashboard := Dashboard.ofRecords records
    (finished dashboard, office.keep generation dashboard book)
  | finished dashboard, book => (finished dashboard, book)

def steps (office : Office σ) : Nat → DashboardQuery → Book σ → DashboardQuery × Book σ
  | 0, query, book => (query, book)
  | n + 1, query, book =>
    let (query, book) := query.step office book
    query.steps office n book

def result? : DashboardQuery → Option Dashboard
  | finished dashboard => some dashboard
  | _ => none

end DashboardQuery

namespace Office

/-- The dashboard, nothing else happening. -/
def dashboard (office : Office σ) (book : Book σ) : Dashboard × Book σ :=
  match office.cachedDashboard? book with
  | some dashboard => (dashboard, book)
  | none =>
    let dashboard := Dashboard.ofRecords book.store.list
    (dashboard, office.keep (book.cache.generation office.dashboardKey) dashboard book)

def holding (book : Book σ) (holder : HolderId) : Holding :=
  Holding.ofRecords holder book.store.list

end Office

theorem DashboardQuery.steps_asked (office : Office σ) (book : Book σ) :
    asked.steps office 4 book =
      (finished (office.dashboard book).1, (office.dashboard book).2) := by
  unfold Office.dashboard
  cases h : office.cachedDashboard? book <;> simp [steps, step, h]

end PolicyBook
