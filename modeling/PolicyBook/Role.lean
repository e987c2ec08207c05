import PolicyBook.Refusal
import PolicyBook.Text.Blank
import PolicyBook.Text.Casing
/-!
The roles in which people and programs act on policies.

A role is read from its name with blanks around it and in any case; the refusal shows the text as it
was given.
-/
namespace PolicyBook

/-- A capacity in which someone asks for a transition. -/
inductive Role where
  | admin
  | agent
  | underwriter
  | customer
  | system
  deriving DecidableEq, Repr

namespace Role

/-- The roles in the order of their declaration, which is also the order of preference. -/
def all : List Role := [admin, agent, underwriter, customer, system]

def index : Role → Fin 5
  | admin => 0
  | agent => 1
  | underwriter => 2
  | customer => 3
  | system => 4

def name : Role → String
  | admin => "ADMIN"
  | agent => "AGENT"
  | underwriter => "UNDERWRITER"
  | customer => "CUSTOMER"
  | system => "SYSTEM"

def title : Role → String
  | admin => "Admin"
  | agent => "Agent"
  | underwriter => "Underwriter"
  | customer => "Customer"
  | system => "System"

def ofName? (s : String) : Option Role :=
  all.find? fun r => r.name == s

/-- Read a role, whatever its case and the blanks around it. -/
def parse (s : String) : Except Refusal Role :=
  match all.find? fun r => Text.sameLetters r.name (Text.trim s) with
  | some r => .ok r
  | none => .error (.unknownRole s)

theorem mem_all (r : Role) : r ∈ all := by
  cases r <;> decide

theorem index_injective {r s : Role} (h : r.index = s.index) : r = s := by
  revert h
  cases r <;> cases s <;> decide

theorem ofName?_name (r : Role) : ofName? r.name = some r := by
  cases r <;> decide

end Role

end PolicyBook
