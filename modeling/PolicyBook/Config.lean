import PolicyBook.Text.Blank
import PolicyBook.Text.Numeral
/-!
The settings of a policy book, read from named variables.

A blank key and a missing variable leave the usual setting. A number that cannot be read does so
too, and the variable is reported; surrounding blanks never matter.
-/
namespace PolicyBook

structure Config where
  dashboardKey : String
  /-- How many audit entries are retained; at least one. -/
  auditCapacity : Nat
  /-- A listener that takes longer than this many milliseconds is slow. -/
  slowMillis : Nat
  deriving DecidableEq, Repr

namespace Config

def dashboardKeyVariable : String := "PLC_DASHBOARD_CACHE_KEY"

def auditCapacityVariable : String := "PLC_AUDIT_CAPACITY"

def slowMillisVariable : String := "PLC_SLOW_LISTENER_MS"

def standard : Config := ⟨"analytics_dashboard", 10000, 250⟩

/-- The number that a text denotes, blanks at its ends aside. -/
def number? (s : String) : Option Nat :=
  Text.word? (Text.trimmed s.toList)

/-- Read a number from a variable, or take the usual one. -/
def numberOr (usual : Nat) (value : Option String) : Nat :=
  (value.bind number?).getD usual

def ofVariables (value? : String → Option String) : Config where
  dashboardKey :=
    (((value? dashboardKeyVariable).map Text.trim).filter (· ≠ "")).getD standard.dashboardKey
  auditCapacity := max (numberOr standard.auditCapacity (value? auditCapacityVariable)) 1
  slowMillis := numberOr standard.slowMillis (value? slowMillisVariable)

/-- The variables that are set and cannot be read, in the order of reading. -/
def unreadable (value? : String → Option String) : List String :=
  [auditCapacityVariable, slowMillisVariable].filter fun name =>
    (value? name).any fun s => (number? s).isNone

end Config

end PolicyBook
