import PolicyBook.Policy.Action
/-!
Transitions: what is recorded when an action moves a policy.
-/
namespace PolicyBook

open Policy

structure Transition where
  source : State
  target : State
  action : Action
  /-- The role in which the actor was allowed to act. -/
  actor : Role
  /-- The reason given, without blanks at its ends. -/
  reason : Option String
  madeAt : Instant
  deriving DecidableEq

instance : JsonForm Transition where
  encode t := .obj [
    ("from", encode t.source),
    ("to", encode t.target),
    ("action", encode t.action),
    ("actor_role", encode t.actor),
    ("reason", Json.encodeOption t.reason),
    ("timestamp", encode t.madeAt)]
  read? r := do
    let [source, target, action, actor, reason, madeAt] ←
      r.fields? ["from", "to", "action", "actor_role", "reason", "timestamp"] | none
    return {
      source := ← Json.required? source
      target := ← Json.required? target
      action := ← Json.required? action
      actor := ← Json.required? actor
      reason := ← Json.optional? reason
      madeAt := ← Json.required? madeAt }

end PolicyBook
