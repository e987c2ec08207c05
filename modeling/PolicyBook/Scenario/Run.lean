import PolicyBook.Lifecycle.Standard
import PolicyBook.Scenario.Report
/-!
Running a scenario.

A run begins with a book of its own. First all declared policies are drafted; a key that is declared
twice ends the run. Then the steps are made in their order; one that fails leaves the book as it
was, and the next one is made.
-/
namespace PolicyBook.Scenario

open Policy

inductive SetupFault where
  | repeatedKey (key : String)
  | undrafted (failure : Failure)
  deriving DecidableEq

def SetupFault.message : SetupFault → String
  | repeatedKey key => s!"duplicate policy key {Text.quoted key}"
  | undrafted failure => failure.message

/-- Where the identifiers and times of a run come from. -/
structure Surroundings where
  policies : Supply
  notifications : Supply
  /-- The time at which a step is made, by its index. -/
  clock : Nat → Instant

/-- The policies that keys stand for. -/
abbrev Keys := Assoc String PolicyId

variable {σ : Type}

/-- Draft the declared policies, so many of them having been drafted before. -/
def draftAll (office : Office σ) (supply : Supply) (drafted : Nat) :
    List Declaration → Keys → Book σ → Except SetupFault (Keys × Book σ)
  | [], keys, book => .ok (keys, book)
  | d :: rest, keys, book =>
    if (keys.get? d.key).isSome then .error (.repeatedKey d.key)
    else
      match office.create ⟨supply.id drafted⟩ d.holder d.premium (supply.now drafted) book with
      | (.error failure, _) => .error (.undrafted failure)
      | (.ok r, book) => draftAll office supply (drafted + 1) rest (keys.set d.key r.id) book

/-- Read what a step asks for: first the policy, then the action, then the roles. -/
def Step.request (keys : Keys) (now : Instant) (s : Step) : Except StepFailure Request := do
  let some policy := keys.get? s.policy | throw (.undeclared s.policy)
  let action ← (Action.parse s.action).mapError StepFailure.unreadable
  let roles ← (RoleSet.parseNames s.roles).mapError StepFailure.unreadable
  return ⟨policy, action, roles, s.reason, now⟩

def Progress.ofRecord (r : Record) : Progress := ⟨r.state, r.version⟩

def Step.make (office : Office σ) (keys : Keys) (now : Instant) (s : Step) (book : Book σ) :
    Except StepFailure Progress × Book σ :=
  match s.request keys now with
  | .error failure => (.error failure, book)
  | .ok request =>
    let (result, book) := office.apply request book
    ((result.mapError StepFailure.refused).map Progress.ofRecord, book)

/-- Make steps in their order, so many of them having been made before. -/
def makeAll (office : Office σ) (keys : Keys) (clock : Nat → Instant) (made : Nat) :
    List Step → Book σ → List Outcome × Book σ
  | [], book => ([], book)
  | s :: rest, book =>
    let (result, book) := s.make office keys (clock made) book
    let (outcomes, book) := makeAll office keys clock (made + 1) rest book
    (⟨made, s.policy, s.action, result⟩ :: outcomes, book)

/-- Report on a book in which steps have led to outcomes. -/
def report (office : Office (Desk σ)) (outcomes : List Outcome) (book : Book (Desk σ)) :
    Report where
  steps := outcomes
  policies := book.store.list
  notifications := book.desk.inbox.items
  audit := book.desk.trail.entries
  chainValid := book.desk.trail.isChain
  dashboard := (office.dashboard book).1

/-- Run a scenario in a book of its own. -/
def run (config : Config) (surroundings : Surroundings) (scenario : Scenario) :
    Except SetupFault Report := do
  let office : Office (Desk Unit) := .standard config
  let book := Book.new (Desk.new config surroundings.notifications ())
  let (keys, book) ← draftAll office surroundings.policies 0 scenario.policies .empty book
  let (outcomes, book) := makeAll office keys surroundings.clock 0 scenario.steps book
  return report office outcomes book

end PolicyBook.Scenario
