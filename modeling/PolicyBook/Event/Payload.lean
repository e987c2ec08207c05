import PolicyBook.Event.Name
import PolicyBook.Transition
/-!
What events tell: the change of a policy, the progress of a claim or of a proposal.

In JSON a payload is an object with one member, named for its family. The bodies of claims and
proposals carry the kind of step as a member of its own, in any position.
-/
namespace PolicyBook.Event

open Policy

/-- A transition of a policy, as it is told. -/
structure PolicyChange where
  policy : PolicyId
  holder : HolderId
  source : State
  target : State
  action : Action
  actor : Role
  reason : Option String
  /-- The version under which the record was saved. -/
  version : Nat
  occurredAt : Instant
  deriving DecidableEq

/-- The change that a saved transition is. -/
def PolicyChange.ofTransition (policy : PolicyId) (holder : HolderId) (t : Transition)
    (version : Nat) : PolicyChange where
  policy
  holder
  source := t.source
  target := t.target
  action := t.action
  actor := t.actor
  reason := t.reason
  version
  occurredAt := t.madeAt

instance : JsonForm PolicyChange where
  encode c := .obj [
    ("policy_id", encode c.policy),
    ("holder_id", encode c.holder),
    ("from", encode c.source),
    ("to", encode c.target),
    ("action", encode c.action),
    ("actor_role", encode c.actor),
    ("reason", Json.encodeOption c.reason),
    ("version", encode c.version),
    ("occurred_at", encode c.occurredAt)]
  read? r := do
    let [policy, holder, source, target, action, actor, reason, version, occurredAt] ←
      r.fields? ["policy_id", "holder_id", "from", "to", "action", "actor_role", "reason",
        "version", "occurred_at"] | none
    return {
      policy := ← Json.required? policy
      holder := ← Json.required? holder
      source := ← Json.required? source
      target := ← Json.required? target
      action := ← Json.required? action
      actor := ← Json.required? actor
      reason := ← Json.optional? reason
      version := ← Json.required? version
      occurredAt := ← Json.required? occurredAt }

inductive ClaimStep where
  | submitted (policy : PolicyId)
  | approved
  | rejected (reason : String)
  /-- The claim was paid, the amount being in the smallest unit of money. -/
  | settled (amount : Nat)
  deriving DecidableEq

structure ClaimProgress where
  claim : ClaimId
  claimant : HolderId
  step : ClaimStep
  deriving DecidableEq

def ClaimProgress.name (p : ClaimProgress) : Name :=
  match p.step with
  | .submitted _ => .claimSubmitted
  | .approved => .claimApproved
  | .rejected _ => .claimRejected
  | .settled _ => .claimSettled

/-- The policy under which the claim was handed in, where the step tells it. -/
def ClaimProgress.policyId? (p : ClaimProgress) : Option PolicyId :=
  match p.step with
  | .submitted policy => some policy
  | .approved | .rejected _ | .settled _ => none

inductive ProposalStep where
  | created (title : String)
  | finalized (passed : Bool)
  deriving DecidableEq

structure ProposalProgress where
  proposal : ProposalId
  creator : HolderId
  step : ProposalStep
  deriving DecidableEq

def ProposalProgress.name (p : ProposalProgress) : Name :=
  match p.step with
  | .created _ => .proposalCreated
  | .finalized _ => .proposalFinalized

/-- The kind of a body and the rest of it. The kind is the only member named `kind`, or the first
item of a list. Because the kind may stand behind everything else, a body must have a value as a
whole: no member of it is passed over unread. -/
def kindAndBody? (r : Json.Raw) : Option (String × Json.Raw) := do
  match ← r.value? with
  | .arr (.str kind :: rest) => some (kind, .value (.arr rest))
  | .obj members =>
    match members.filter fun m => m.1 == "kind" with
    | [(_, .str kind)] => some (kind, .value (.obj (members.filter fun m => m.1 != "kind")))
    | _ => none
  | _ => none

instance : JsonForm ClaimProgress where
  encode p :=
    let common := [("claim_id", encode p.claim), ("user_id", encode p.claimant)]
    match p.step with
    | .submitted policy =>
      .obj (("kind", .str "submitted") :: common ++ [("policy_id", encode policy)])
    | .approved => .obj (("kind", .str "approved") :: common)
    | .rejected reason => .obj (("kind", .str "rejected") :: common ++ [("reason", encode reason)])
    | .settled amount =>
      .obj (("kind", .str "settled") :: common ++ [("amount_minor", encode amount)])
  read? r := do
    match ← kindAndBody? r with
    | ("submitted", body) =>
      let [claim, claimant, policy] ← body.fields? ["claim_id", "user_id", "policy_id"] | none
      return ⟨← Json.required? claim, ← Json.required? claimant,
        .submitted (← Json.required? policy)⟩
    | ("approved", body) =>
      let [claim, claimant] ← body.fields? ["claim_id", "user_id"] | none
      return ⟨← Json.required? claim, ← Json.required? claimant, .approved⟩
    | ("rejected", body) =>
      let [claim, claimant, reason] ← body.fields? ["claim_id", "user_id", "reason"] | none
      return ⟨← Json.required? claim, ← Json.required? claimant,
        .rejected (← Json.required? reason)⟩
    | ("settled", body) =>
      let [claim, claimant, amount] ← body.fields? ["claim_id", "user_id", "amount_minor"] | none
      return ⟨← Json.required? claim, ← Json.required? claimant,
        .settled (← Json.required? amount)⟩
    | _ => none

instance : JsonForm ProposalProgress where
  encode p :=
    let common := [("proposal_id", encode p.proposal), ("creator_id", encode p.creator)]
    match p.step with
    | .created title => .obj (("kind", .str "created") :: common ++ [("title", encode title)])
    | .finalized passed =>
      .obj (("kind", .str "finalized") :: common ++ [("passed", encode passed)])
  read? r := do
    match ← kindAndBody? r with
    | ("created", body) =>
      let [proposal, creator, title] ← body.fields? ["proposal_id", "creator_id", "title"] | none
      return ⟨← Json.required? proposal, ← Json.required? creator,
        .created (← Json.required? title)⟩
    | ("finalized", body) =>
      let [proposal, creator, passed] ←
        body.fields? ["proposal_id", "creator_id", "passed"] | none
      return ⟨← Json.required? proposal, ← Json.required? creator,
        .finalized (← Json.required? passed)⟩
    | _ => none

inductive Payload where
  | claim (progress : ClaimProgress)
  | policy (change : PolicyChange)
  | proposal (progress : ProposalProgress)
  deriving DecidableEq

namespace Payload

def name : Payload → Name
  | claim progress => progress.name
  | policy change => .ofAction change.action
  | proposal progress => progress.name

/-- Whom the event concerns. -/
def recipient : Payload → HolderId
  | claim progress => progress.claimant
  | policy change => change.holder
  | proposal progress => progress.creator

/-- The policy to which the event refers, if it does. -/
def policyId? : Payload → Option PolicyId
  | policy change => some change.policy
  | claim progress => progress.policyId?
  | proposal _ => none

def policyChange? : Payload → Option PolicyChange
  | policy change => some change
  | _ => none

end Payload

instance : JsonForm Payload where
  encode
    | .claim progress => .obj [("claim", encode progress)]
    | .policy change => .obj [("policy", encode change)]
    | .proposal progress => .obj [("proposal", encode progress)]
  read? r :=
    match r.members? with
    | some [("claim", body)] => (read? body).map Payload.claim
    | some [("policy", body)] => (read? body).map Payload.policy
    | some [("proposal", body)] => (read? body).map Payload.proposal
    | _ => none

end PolicyBook.Event
