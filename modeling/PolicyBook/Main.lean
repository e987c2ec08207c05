import PolicyBook.Command
import Std.Time.DateTime.Timestamp
/-!
The program behind the command `plc`.

Everything that is not a value comes from here: the words of the command line, the environment, the
document of a scenario, the time, and a random number to count fresh identifiers from.
-/
namespace PolicyBook.Command

def currentTime : IO Instant := do
  let seconds := (← Std.Time.Timestamp.now).toSecondsSinceUnixEpoch.val
  match Instant.ofSeconds seconds with
  | .ok now => return now
  | .error refusal => throw (IO.userError refusal.opening)

/-- Identifiers that count up from a random one, and the time now. -/
def freshSupply : IO Supply := do
  let bytes ← IO.getRandomBytes 12
  let high := bytes.toList.foldl (fun n b => 256 * n + b.toNat) 0
  return .counting (high * twoTo 32) (← currentTime)

def currentSurroundings : IO Scenario.Surroundings := do
  let policies ← freshSupply
  return ⟨policies, ← freshSupply, policies.now⟩

/-- The settings that the environment gives. Those that cannot be read are told. -/
def currentConfig : IO Config := do
  let names := [Config.dashboardKeyVariable, Config.auditCapacityVariable,
    Config.slowMillisVariable]
  let values ← names.mapM fun name => return (name, ← IO.getEnv name)
  let value? (name : String) : Option String := (values.lookup name).join
  for name in Config.unreadable value? do
    IO.eprintln s!"ignoring {name}: not a number"
  return Config.ofVariables value?

def document? (path : String) : IO (Option String) := do
  try return some (← IO.FS.readFile path)
  catch _ => return none

def neededDocument : Command → IO (Option String)
  | run path => document? path
  | _ => return none

end PolicyBook.Command

open PolicyBook in
def main (words : List String) : IO UInt32 := do
  match Command.ofWords? words with
  | none =>
    IO.eprintln Command.usage
    return Command.misused.toUInt32
  | some command =>
    let config ← Command.currentConfig
    let document ← Command.neededDocument command
    match command.output config (← Command.currentSurroundings) document with
    | .error fault =>
      IO.eprintln s!"Error: {fault.message}"
      return Command.failed.toUInt32
    | .ok text =>
      IO.println text
      return Command.done.toUInt32
