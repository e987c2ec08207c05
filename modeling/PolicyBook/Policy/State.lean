import PolicyBook.Json.Form
/-!
The states of a policy.
-/
namespace PolicyBook.Policy

/-- Where a policy stands in its life. -/
inductive State where
  | draft
  | active
  | renewed
  | expired
  | cancelled
  deriving DecidableEq, Repr

namespace State

def all : List State := [draft, active, renewed, expired, cancelled]

def name : State → String
  | draft => "DRAFT"
  | active => "ACTIVE"
  | renewed => "RENEWED"
  | expired => "EXPIRED"
  | cancelled => "CANCELLED"

/-- Whether a policy never leaves the state. -/
def isTerminal (s : State) : Bool := s == cancelled

/-- Whether a policy gives cover in the state. -/
def isInForce (s : State) : Bool := s == active || s == renewed

def ofName? (s : String) : Option State :=
  all.find? fun state => state.name == s

/-- Read a state, whatever its case and the blanks around it. -/
def parse (s : String) : Except Refusal State :=
  match all.find? fun state => Text.sameLetters state.name (Text.trim s) with
  | some state => .ok state
  | none => .error (.unknownState s)

theorem mem_all (s : State) : s ∈ all := by
  cases s <;> decide

theorem ofName?_name (s : State) : ofName? s.name = some s := by
  cases s <;> decide

end State

instance : JsonForm State where
  encode s := .str s.name
  read? := Json.named? State.ofName?

end PolicyBook.Policy
