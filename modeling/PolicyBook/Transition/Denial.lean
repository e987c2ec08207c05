import PolicyBook.Transition.Table
/-!
Whether a transition may be made.

`Table.transition` asks three questions in turn: is there a rule, is the reason given that it needs,
has the actor one of the roles that it allows? The first “no” is the `Denial`.
-/
namespace PolicyBook

open Policy

inductive Denial where
  | undefined (source : State) (action : Action)
  | reasonMissing (source : State) (action : Action)
  /-- None of the actor's roles is allowed to act. -/
  | notAllowed (source : State) (action : Action) (roles allowed : RoleSet)
  deriving DecidableEq, Repr

def Denial.message : Denial → String
  | undefined source action => s!"action {action.name} is not defined from state {source.name}"
  | reasonMissing source action =>
    s!"action {action.name} from state {source.name} requires a reason"
  | notAllowed source action roles allowed =>
    s!"roles {roles.text} may not {action.name} a policy in state {source.name}; " ++
      s!"allowed: {allowed.text}"

/-- A reason without the blanks at its ends; a blank reason is none. -/
def statedReason (reason : Option String) : Option String :=
  (reason.map Text.trim).filter (· ≠ "")

def Table.transition (table : Table) (source : State) (action : Action) (roles : RoleSet)
    (reason : Option String) (now : Instant) : Except Denial Transition :=
  match table.rule? source action with
  | none => .error (.undefined source action)
  | some rule =>
    let stated := statedReason reason
    if rule.needsReason && stated.isNone then .error (.reasonMissing source action)
    else
      match (roles.inter rule.allowed).first? with
      | none => .error (.notAllowed source action roles rule.allowed)
      | some actor =>
        .ok {
          source, target := rule.target, action, actor, reason := stated, madeAt := now }

end PolicyBook
