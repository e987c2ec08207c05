/-!
The words of a command line.

A word that begins with a minus is a switch or a setting, unless it is the minus alone; what follows
a double minus is not looked at in this way. Words are taken in their order, and the first one that
fits nowhere, or the first request for help, decides.
-/
namespace PolicyBook

inductive Word where
  /-- The mark behind which all words are operands. -/
  | ending
  /-- A name behind two minuses, with what stands behind an equals sign. -/
  | long (name : String) (value : Option String)
  /-- Letters behind one minus. -/
  | short (letters : List Char)
  | operand (text : String)
  deriving DecidableEq, Repr

def Word.ofText (s : String) : Word :=
  match s.toList with
  | ['-', '-'] => ending
  | '-' :: '-' :: cs =>
    let name := cs.takeWhile (· != '=')
    let rest := cs.dropWhile (· != '=')
    long (String.ofList name) (if rest.isEmpty then none else some (String.ofList rest.tail))
  | '-' :: c :: cs => short (c :: cs)
  | _ => operand s

/-- What may follow the name of a command. -/
structure Layout where
  switches : List String
  settings : List String
  accepts : String → String → Bool
  /-- Whether a text may be the operand; there is one at most. -/
  acceptsOperand : String → Bool

/-- What was given behind the name of a command. -/
structure Given where
  switches : List String
  settings : List (String × String)
  operand : Option String
  deriving DecidableEq, Repr

namespace Given

def nothing : Given := ⟨[], [], none⟩

def setting? (given : Given) (name : String) : Option String := given.settings.lookup name

/-- Add a switch that was not given before. -/
def switch? (layout : Layout) (name : String) (given : Given) : Option Given :=
  if layout.switches.contains name ∧ !given.switches.contains name then
    some { given with switches := name :: given.switches }
  else none

/-- Add a setting that was not given before. -/
def set? (layout : Layout) (name value : String) (given : Given) : Option Given :=
  if layout.settings.contains name ∧ (given.setting? name).isNone ∧ layout.accepts name value then
    some { given with settings := (name, value) :: given.settings }
  else none

/-- Add the operand, if there was none before. -/
def operate? (layout : Layout) (text : String) (given : Given) : Option Given :=
  if given.operand.isNone ∧ layout.acceptsOperand text then
    some { given with operand := some text }
  else none

/-- Add operands only. -/
def operands? (layout : Layout) : List String → Given → Option Given
  | [], given => some given
  | text :: rest, given => (given.operate? layout text).bind (operands? layout rest)

end Given

inductive Asked where
  | help
  | given (given : Given)

def Layout.read? (layout : Layout) : List String → Given → Option Asked
  | [], given => some (.given given)
  | word :: rest, given =>
    match Word.ofText word with
    | .ending => (given.operands? layout rest).map .given
    | .short letters => if letters.head? = some 'h' then some .help else none
    | .operand text => (given.operate? layout text).bind (layout.read? rest)
    | .long name (some value) => (given.set? layout name value).bind (layout.read? rest)
    | .long name none =>
      if name = "help" then some .help
      else if layout.settings.contains name then
        match rest with
        | [] => none
        | value :: rest =>
          match Word.ofText value with
          | .operand value => (given.set? layout name value).bind (layout.read? rest)
          | _ => none
      else (given.switch? layout name).bind (layout.read? rest)

end PolicyBook
