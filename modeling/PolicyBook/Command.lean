import PolicyBook.Command.Words
import PolicyBook.Json.Writing
import PolicyBook.Scenario.Document
import PolicyBook.Scenario.Run
import PolicyBook.Transition.Table
/-!
The command `plc`.

It prints the table of transitions, lists the actions that are available in a state, or runs a
scenario and prints the report. A command line that cannot be read makes it fail with status two,
and a scenario that cannot be run with status one.
-/
namespace PolicyBook

open Policy

inductive Command where
  | version
  | help
  | table (asJson : Bool)
  | actions (state : State) (roles : RoleSet) (asJson : Bool)
  | run (path : String)
  deriving DecidableEq

namespace Command

def tableLayout : Layout := ⟨["json"], [], fun _ _ => false, fun _ => false⟩

/-- Whether a text is a state, or a list of roles. -/
def acceptsForActions (name value : String) : Bool :=
  if name = "state" then (State.parse value).toOption.isSome
  else (RoleSet.parseList value).toOption.isSome

def actionsLayout : Layout :=
  ⟨["json"], ["state", "roles"], acceptsForActions, fun _ => false⟩

def runLayout : Layout := ⟨[], [], fun _ _ => false, fun path => !path.isEmpty⟩

def table? (words : List String) : Option Command :=
  (tableLayout.read? words .nothing).map fun
    | .help => help
    | .given given => table (given.switches.contains "json")

def actions? (words : List String) : Option Command := do
  match ← actionsLayout.read? words .nothing with
  | .help => return help
  | .given given =>
    let state ← (State.parse (← given.setting? "state")).toOption
    let roles ← (RoleSet.parseList (← given.setting? "roles")).toOption
    return actions state roles (given.switches.contains "json")

def run? (words : List String) : Option Command := do
  match ← runLayout.read? words .nothing with
  | .help => return help
  | .given given => return run (← given.operand)

def names : List String := ["table", "actions", "run", "help"]

/-- Read what follows `help`: nothing, or one name. -/
def help? : List String → Option Command
  | [] => some help
  | [name] => if names.contains name then some help else none
  | _ => none

def ofWords? : List String → Option Command
  | [] => none
  | word :: rest =>
    match Word.ofText word with
    | .long "help" none => some help
    | .long "version" none => some version
    | .short ('h' :: _) => some help
    | .short ('V' :: _) => some version
    | .operand "table" => table? rest
    | .operand "actions" => actions? rest
    | .operand "run" => run? rest
    | .operand "help" => help? rest
    | _ => none

def versionText : String := "plc 0.1.0"

def usage : String := "\n".intercalate [
  "Policy lifecycle toolchain",
  "",
  "Usage: plc <COMMAND>",
  "",
  "Commands:",
  "  table    Print the transition table",
  "  actions  List available actions for a state and role set",
  "  run      Run a YAML lifecycle scenario",
  "  help     Print this message or the help of the given subcommand(s)",
  "",
  "Options:",
  "  -h, --help     Print help",
  "  -V, --version  Print version"]

def tableText (asJson : Bool) : String :=
  if asJson then (encode Table.standard.rules).pretty else Table.standard.text

def actionsText (state : State) (roles : RoleSet) (asJson : Bool) : String :=
  let found := Table.standard.actions state roles
  if asJson then (encode found).line
  else if found.isEmpty then s!"no actions available from {state.name} for {roles.text}"
  else "\n".intercalate (found.map Action.name)

inductive Fault where
  | document (fault : Scenario.DocumentFault)
  | setup (fault : Scenario.SetupFault)

def Fault.message : Fault → String
  | document fault => fault.message
  | setup fault => fault.message

def runDocument (config : Config) (surroundings : Scenario.Surroundings) (path : String)
    (content : Option String) : Except Fault Scenario.Report := do
  let scenario ← (Scenario.ofDocument path content).mapError Fault.document
  (scenario.run config surroundings).mapError Fault.setup

/-- Do what the command is asked for, and answer what it prints. The document is the one at the path
of a scenario. -/
def output (config : Config) (surroundings : Scenario.Surroundings) (document : Option String) :
    Command → Except Fault String
  | version => .ok versionText
  | help => .ok usage
  | table asJson => .ok (tableText asJson)
  | actions state roles asJson => .ok (actionsText state roles asJson)
  | run path => do
    let report ← runDocument config surroundings path document
    return report.json.pretty

def done : Nat := 0

def failed : Nat := 1

/-- The status behind a command line that cannot be read. -/
def misused : Nat := 2

end Command

end PolicyBook
