import PolicyBook.Transition
/-!
Policy records: what the library keeps about a policy.
-/
namespace PolicyBook.Policy

/-- A policy as it is kept. -/
structure Record where
  id : PolicyId
  holder : HolderId
  /-- The premium in the smallest unit of money. -/
  premium : Nat
  state : State
  /-- How often the record has been saved. -/
  version : Nat
  createdAt : Instant
  updatedAt : Instant
  /-- The transitions made so far, oldest first. -/
  transitions : List Transition
  deriving DecidableEq

namespace Record

def draft (id : PolicyId) (holder : HolderId) (premium : Nat) (now : Instant) : Record where
  id
  holder
  premium
  state := .draft
  version := 0
  createdAt := now
  updatedAt := now
  transitions := []

def apply (r : Record) (t : Transition) : Record :=
  { r with
    state := t.target
    updatedAt := t.madeAt
    transitions := r.transitions ++ [t] }

def isInForce (r : Record) : Bool := r.state.isInForce

end Record

instance : JsonForm Record where
  encode r := .obj [
    ("id", encode r.id),
    ("holder_id", encode r.holder),
    ("premium_minor", encode r.premium),
    ("state", encode r.state),
    ("version", encode r.version),
    ("created_at", encode r.createdAt),
    ("updated_at", encode r.updatedAt),
    ("transitions", encode r.transitions)]
  read? r := do
    let [id, holder, premium, state, version, createdAt, updatedAt, transitions] ←
      r.fields? ["id", "holder_id", "premium_minor", "state", "version", "created_at",
        "updated_at", "transitions"] | none
    return {
      id := ← Json.required? id
      holder := ← Json.required? holder
      premium := ← Json.required? premium
      state := ← Json.required? state
      version := ← Json.required? version
      createdAt := ← Json.required? createdAt
      updatedAt := ← Json.required? updatedAt
      transitions := ← Json.required? transitions }

end PolicyBook.Policy
