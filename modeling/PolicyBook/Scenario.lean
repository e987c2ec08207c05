import PolicyBook.Json.Form
/-!
Scenarios: policies to be drafted, and transitions to be tried on them one after the other.

A step names its policy by the key of a declaration, and its action and roles by any text. Texts are
read when the step is made, so that one bad step spoils no other.

As JSON, the records of a scenario admit no other members than their own. What may be left out may
also be missing at the end of a list of fields.
-/
namespace PolicyBook

namespace Scenario

/-- A policy to be drafted before the first step. -/
structure Declaration where
  /-- The name by which steps refer to it. -/
  key : String
  holder : HolderId
  /-- The premium in the smallest unit of money. -/
  premium : Nat
  deriving DecidableEq, Repr

/-- A transition to be tried. -/
structure Step where
  /-- The key of the policy. -/
  policy : String
  action : String
  roles : List String
  reason : Option String
  deriving DecidableEq, Repr

end Scenario

structure Scenario where
  policies : List Scenario.Declaration
  steps : List Scenario.Step
  deriving DecidableEq, Repr

namespace Scenario

def HasDistinctKeys (scenario : Scenario) : Prop :=
  (scenario.policies.map Declaration.key).Nodup

/-- What concerns one key. -/
def onlyKey (key : String) (scenario : Scenario) : Scenario where
  policies := scenario.policies.filter fun d => d.key = key
  steps := scenario.steps.filter fun s => s.policy = key

end Scenario

namespace Json

/-- The fields of a record that admits no others. A list of fields has so many items at least; those
that it lacks are absent. -/
def Raw.closedFields? (least : Nat) (names : List String) (r : Raw) :
    Option (List (Option Raw)) :=
  match r.items?, r.members? with
  | some items, _ =>
    if least ≤ items.length ∧ items.length ≤ names.length then
      some (items.map some ++ List.replicate (names.length - items.length) none)
    else none
  | none, some members =>
    if members.all fun m => names.contains m.1 then fieldsOf? names members else none
  | none, none => none

def listOrEmpty? {α : Type} [JsonForm α] : Option Raw → Option (List α)
  | none => some []
  | some r => read? r

end Json

namespace Scenario

instance : JsonForm Declaration where
  encode d := .obj [
    ("key", encode d.key),
    ("holder", encode d.holder),
    ("premium_minor", encode d.premium)]
  read? r := do
    let [key, holder, premium] ← r.closedFields? 3 ["key", "holder", "premium_minor"] | none
    return {
      key := ← Json.required? key
      holder := ← Json.required? holder
      premium := ← Json.required? premium }

instance : JsonForm Step where
  encode s := .obj [
    ("policy", encode s.policy),
    ("action", encode s.action),
    ("roles", encode s.roles),
    ("reason", Json.encodeOption s.reason)]
  read? r := do
    let [policy, action, roles, reason] ←
      r.closedFields? 2 ["policy", "action", "roles", "reason"] | none
    return {
      policy := ← Json.required? policy
      action := ← Json.required? action
      roles := ← Json.listOrEmpty? roles
      reason := ← Json.optional? reason }

instance : JsonForm Scenario where
  encode scenario := .obj [
    ("policies", encode scenario.policies),
    ("steps", encode scenario.steps)]
  read? r := do
    let [policies, steps] ← r.closedFields? 0 ["policies", "steps"] | none
    return {
      policies := ← Json.listOrEmpty? policies
      steps := ← Json.listOrEmpty? steps }

end Scenario

end PolicyBook
