import PolicyBook.Event
/-!
Notifications: what people are told about events.

`Notification.about` words a payload: its category, a title and a message. The wording depends on
the payload alone, not on the name under which it was published.
-/
namespace PolicyBook

open Policy

namespace Notification

inductive Category where
  | claim
  | policy
  | governance
  deriving DecidableEq, Repr

namespace Category

def all : List Category := [claim, policy, governance]

def name : Category → String
  | claim => "claim"
  | policy => "policy"
  | governance => "dao"

def ofName? (s : String) : Option Category :=
  all.find? fun category => category.name == s

end Category

instance : JsonForm Category where
  encode category := .str category.name
  read? := Json.named? Category.ofName?

structure Content where
  category : Category
  title : String
  message : String
  deriving DecidableEq, Repr

/-- An amount in the smallest unit of money, with two places behind the point. -/
def amountText (amount : Nat) : String :=
  String.ofList (Text.decimal (amount / 100) ++ '.' :: Text.padded 2 (amount % 100))

def claimContent (p : Event.ClaimProgress) : Content :=
  let id := p.claim.text
  match p.step with
  | .submitted _ =>
    ⟨.claim, "Claim Submitted",
      s!"Your claim (ID: {id}) has been submitted and is under review."⟩
  | .approved =>
    ⟨.claim, "Claim Approved", s!"Great news! Your claim (ID: {id}) has been approved."⟩
  | .rejected reason =>
    ⟨.claim, "Claim Rejected", s!"Your claim (ID: {id}) has been rejected. Reason: {reason}"⟩
  | .settled amount =>
    ⟨.claim, "Claim Settled",
      s!"Your claim (ID: {id}) has been settled. Amount: ${amountText amount}"⟩

def policyContent (c : Event.PolicyChange) : Content :=
  let id := c.policy.uuid.text
  match c.action with
  | .issue =>
    ⟨.policy, "Policy Issued", s!"Your policy (ID: {id}) has been issued and is now active."⟩
  | .renew => ⟨.policy, "Policy Renewed", s!"Your policy (ID: {id}) has been renewed."⟩
  | .expire =>
    ⟨.policy, "Policy Expired",
      s!"Your policy (ID: {id}) has expired. Please renew to keep your coverage."⟩
  | .cancel =>
    ⟨.policy, "Policy Cancelled",
      s!"Your policy (ID: {id}) has been cancelled. Reason: " ++ c.reason.getD "not provided"⟩

def proposalContent (p : Event.ProposalProgress) : Content :=
  match p.step with
  | .created title =>
    ⟨.governance, "Proposal Created",
      s!"Your proposal \"{title}\" has been created and is open for voting."⟩
  | .finalized passed =>
    ⟨.governance, "Proposal Voting Ended",
      s!"Voting on your proposal (ID: {p.proposal.text}) has ended. The proposal " ++
        (if passed then "passed." else "did not pass.")⟩

/-- What a payload is told as. -/
def about : Event.Payload → Content
  | .claim progress => claimContent progress
  | .policy change => policyContent change
  | .proposal progress => proposalContent progress

end Notification

structure Notification where
  id : Uuid
  user : HolderId
  content : Notification.Content
  read : Bool
  createdAt : Instant
  deriving DecidableEq

instance : JsonForm Notification where
  encode n := .obj [
    ("id", encode n.id),
    ("user_id", encode n.user),
    ("type", encode n.content.category),
    ("title", encode n.content.title),
    ("message", encode n.content.message),
    ("read", encode n.read),
    ("created_at", encode n.createdAt)]
  read? r := do
    let [id, user, category, title, message, read, createdAt] ←
      r.fields? ["id", "user_id", "type", "title", "message", "read", "created_at"] | none
    return {
      id := ← Json.required? id
      user := ← Json.required? user
      content := {
        category := ← Json.required? category
        title := ← Json.required? title
        message := ← Json.required? message }
      read := ← Json.required? read
      createdAt := ← Json.required? createdAt }

end PolicyBook
