import PolicyBook.Policy.Action
/-!
The names under which events are published.
-/
namespace PolicyBook.Event

open Policy

inductive Name where
  | claimSubmitted
  | claimApproved
  | claimRejected
  | claimSettled
  | policyIssued
  | policyRenewed
  | policyExpired
  | policyCancelled
  | proposalCreated
  | proposalFinalized
  deriving DecidableEq, Repr

namespace Name

def ofClaims : List Name := [claimSubmitted, claimApproved, claimRejected, claimSettled]

def ofPolicies : List Name := [policyIssued, policyRenewed, policyExpired, policyCancelled]

def ofProposals : List Name := [proposalCreated, proposalFinalized]

def all : List Name := ofClaims ++ ofPolicies ++ ofProposals

def text : Name → String
  | claimSubmitted => "claim.submitted"
  | claimApproved => "claim.approved"
  | claimRejected => "claim.rejected"
  | claimSettled => "claim.settled"
  | policyIssued => "policy.issued"
  | policyRenewed => "policy.renewed"
  | policyExpired => "policy.expired"
  | policyCancelled => "policy.cancelled"
  | proposalCreated => "dao.proposal.created"
  | proposalFinalized => "dao.proposal.finalized"

/-- The name of the event that an action leads to. -/
def ofAction : Action → Name
  | .issue => policyIssued
  | .renew => policyRenewed
  | .expire => policyExpired
  | .cancel => policyCancelled

def ofText? (s : String) : Option Name :=
  all.find? fun name => name.text == s

/-- Read a name; case and blanks matter. -/
def parse (s : String) : Except Refusal Name :=
  match ofText? s with
  | some name => .ok name
  | none => .error (.unknownEvent s)

theorem mem_all (name : Name) : name ∈ all := by
  cases name <;> decide

theorem ofText?_text (name : Name) : ofText? name.text = some name := by
  cases name <;> decide

end Name

instance : JsonForm Name where
  encode name := .str name.text
  read? := Json.named? Name.ofText?

end PolicyBook.Event
