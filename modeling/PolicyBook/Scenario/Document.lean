import PolicyBook.Scenario
import PolicyBook.Yaml.Reading
/-!
Scenario documents.

A scenario is written down in YAML. Its records are tables that admit the same fields as in JSON and
no others; an empty document is the scenario without policies and steps. Where a text is expected
any scalar is one, also a number or nothing at all.
-/
namespace PolicyBook.Scenario

open Yaml (Node)

def listed? {α : Type} (doc : Yaml.Document) (item? : Node → Option α) :
    Option Node → Option (List α)
  | none => some []
  | some node => (doc.items? node).bind fun items => items.mapM item?

def Declaration.ofYaml? (doc : Yaml.Document) (node : Node) : Option Declaration := do
  let [key, holder, premium] ← doc.closedFields? ["key", "holder", "premium_minor"] node | none
  return {
    key := ← key.bind doc.text?
    holder := ⟨← holder.bind doc.text?⟩
    premium := ← premium.bind doc.word? }

def Step.ofYaml? (doc : Yaml.Document) (node : Node) : Option Step := do
  let [policy, action, roles, reason] ←
    doc.closedFields? ["policy", "action", "roles", "reason"] node | none
  return {
    policy := ← policy.bind doc.text?
    action := ← action.bind doc.text?
    roles := ← listed? doc doc.text? roles
    reason := ← doc.optional? doc.text? reason }

/-- How many levels of a document a scenario can have, counting aliases. -/
def levels : Nat := 16

/-- Read a scenario. A document that refers to the same parts over and over is refused. -/
def ofYaml? (doc : Yaml.Document) : Option Scenario := do
  let [policies, steps] ← doc.closedFields? ["policies", "steps"] doc.root | none
  let scenario : Scenario := {
    policies := ← listed? doc (Declaration.ofYaml? doc) policies
    steps := ← listed? doc (Step.ofYaml? doc) steps }
  guard (doc.isModest levels)
  return scenario

inductive DocumentFault where
  | unread (path : String)
  | malformed (path : String)
  deriving DecidableEq, Repr

def DocumentFault.message : DocumentFault → String
  | unread path => s!"reading scenario {path}"
  | malformed path => s!"parsing scenario {path}"

def ofDocument (path : String) (content : Option String) : Except DocumentFault Scenario :=
  match content with
  | none => .error (.unread path)
  | some content =>
    match (Yaml.Document.ofText? content).bind ofYaml? with
    | none => .error (.malformed path)
    | some scenario => .ok scenario

end PolicyBook.Scenario
