import PolicyBook.Audit
import PolicyBook.Lifecycle.Failure
import PolicyBook.Notification
import PolicyBook.Rollup
import PolicyBook.Scenario
/-!
What is told about a scenario that was run.

Every step has an outcome: the state and the version that the policy has reached, or why the step
was not made. Beside the outcomes a report shows what the run has left behind.
-/
namespace PolicyBook.Scenario

open Policy

inductive StepFailure where
  | undeclared (key : String)
  /-- The action or a role has no known name. -/
  | unreadable (refusal : Refusal)
  | refused (failure : Failure)
  deriving DecidableEq

namespace StepFailure

def code : StepFailure → String
  | undeclared _ => "NOT_FOUND"
  | unreadable _ => "VALIDATION_ERROR"
  | refused failure => failure.code

/-- The wording of a failure. The names of actions and roles are refused without an explanation. -/
def message : StepFailure → String
  | undeclared key => s!"unknown policy key {Text.quoted key}"
  | unreadable refusal => refusal.opening
  | refused failure => failure.message

end StepFailure

structure Progress where
  state : State
  /-- How often its record was saved. -/
  version : Nat
  deriving DecidableEq

structure Outcome where
  /-- How many steps came before. -/
  index : Nat
  /-- The key of the policy, as the step gives it. -/
  policy : String
  action : String
  result : Except StepFailure Progress

namespace Outcome

def succeeded (outcome : Outcome) : Bool :=
  match outcome.result with
  | .ok _ => true
  | .error _ => false

def resultMembers : Except StepFailure Progress → List (String × Json)
  | .ok progress => [("state", encode progress.state), ("version", encode progress.version)]
  | .error failure =>
    [("error", .obj [("code", .str failure.code), ("message", .str failure.message)])]

def json (outcome : Outcome) : Json :=
  .obj ([("index", encode outcome.index), ("policy", encode outcome.policy),
    ("action", encode outcome.action)] ++ resultMembers outcome.result)

end Outcome

structure Report where
  steps : List Outcome
  /-- The records of the policies, oldest first. -/
  policies : List Record
  /-- What people were told, oldest first. -/
  notifications : List Notification
  /-- The retained audit entries, oldest first. -/
  audit : List Audit.Entry
  chainValid : Bool
  dashboard : Dashboard

def Report.json (report : Report) : Json :=
  .obj [
    ("steps", .arr (report.steps.map Outcome.json)),
    ("policies", encode report.policies),
    ("notifications", encode report.notifications),
    ("audit", encode report.audit),
    ("audit_chain_valid", encode report.chainValid),
    ("dashboard", encode report.dashboard)]

end PolicyBook.Scenario
