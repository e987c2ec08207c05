import PolicyBook.Policy.Store
import PolicyBook.Transition.Denial
/-!
Why an operation on a policy fails.

A failure has a stable code for programs and a message for people. Only one kind of failure can go
away by loading the record again: the one in which somebody else saved it first.
-/
namespace PolicyBook

open Policy

inductive Failure where
  | denied (denial : Denial)
  | store (fault : StoreFault)
  deriving DecidableEq

namespace Failure

def code : Failure → String
  | denied (.undefined ..) => "ILLEGAL_TRANSITION"
  | denied (.reasonMissing ..) => "MISSING_REASON"
  | denied (.notAllowed ..) => "UNAUTHORIZED"
  | store (.missing _) => "NOT_FOUND"
  | store (.outdated ..) => "CONFLICT"
  | store (.taken _) => "CONFLICT"

def message : Failure → String
  | denied denial => denial.message
  | store fault => fault.message

/-- Whether the operation may succeed when the record is loaded again. -/
def isRetryable : Failure → Bool
  | store (.outdated ..) => true
  | _ => false

end Failure

end PolicyBook
