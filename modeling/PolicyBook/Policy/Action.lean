import PolicyBook.Policy.State
/-!
The actions that move a policy from one state to another.

Each action has one target: wherever it is allowed it leads to the same state.
-/
namespace PolicyBook.Policy

inductive Action where
  | issue
  | renew
  | expire
  | cancel
  deriving DecidableEq, Repr

namespace Action

def all : List Action := [issue, renew, expire, cancel]

def name : Action → String
  | issue => "ISSUE"
  | renew => "RENEW"
  | expire => "EXPIRE"
  | cancel => "CANCEL"

/-- The state to which an action leads. -/
def target : Action → State
  | issue => .active
  | renew => .renewed
  | expire => .expired
  | cancel => .cancelled

def ofName? (s : String) : Option Action :=
  all.find? fun action => action.name == s

/-- Read an action, whatever its case and the blanks around it. -/
def parse (s : String) : Except Refusal Action :=
  match all.find? fun action => Text.sameLetters action.name (Text.trim s) with
  | some action => .ok action
  | none => .error (.unknownAction s)

theorem mem_all (a : Action) : a ∈ all := by
  cases a <;> decide

theorem ofName?_name (a : Action) : ofName? a.name = some a := by
  cases a <;> decide

end Action

instance : JsonForm Action where
  encode a := .str a.name
  read? := Json.named? Action.ofName?

end PolicyBook.Policy
