import PolicyBook.Lifecycle.Book
/-!
Announcing the progress of claims and proposals.

Neither is kept: the event is all there is. A claim is handed in under a policy that must be on
record, and the claimant is its holder; everything else is announced as it comes in.
-/
namespace PolicyBook

variable {σ : Type}

namespace Office

def announceClaim (office : Office σ) (claim : ClaimId) (claimant : HolderId)
    (step : Event.ClaimStep) (book : Book σ) : Event.ClaimProgress × Book σ :=
  let progress : Event.ClaimProgress := ⟨claim, claimant, step⟩
  (progress, office.publish (.of (.claim progress)) book)

def submitClaim (office : Office σ) (claim : ClaimId) (policy : PolicyId) (book : Book σ) :
    Except Failure Event.ClaimProgress × Book σ :=
  match record book policy with
  | .error failure => (.error failure, book)
  | .ok r =>
    let (progress, book) := office.announceClaim claim r.holder (.submitted policy) book
    (.ok progress, book)

def approveClaim (office : Office σ) (claim : ClaimId) (claimant : HolderId) (book : Book σ) :
    Event.ClaimProgress × Book σ :=
  office.announceClaim claim claimant .approved book

/-- Reject a claim; the reason loses the blanks at its ends. -/
def rejectClaim (office : Office σ) (claim : ClaimId) (claimant : HolderId) (reason : String)
    (book : Book σ) : Event.ClaimProgress × Book σ :=
  office.announceClaim claim claimant (.rejected (Text.trim reason)) book

def settleClaim (office : Office σ) (claim : ClaimId) (claimant : HolderId) (amount : Nat)
    (book : Book σ) : Event.ClaimProgress × Book σ :=
  office.announceClaim claim claimant (.settled amount) book

def announceProposal (office : Office σ) (proposal : ProposalId) (creator : HolderId)
    (step : Event.ProposalStep) (book : Book σ) : Event.ProposalProgress × Book σ :=
  let progress : Event.ProposalProgress := ⟨proposal, creator, step⟩
  (progress, office.publish (.of (.proposal progress)) book)

def createProposal (office : Office σ) (proposal : ProposalId) (creator : HolderId)
    (title : String) (book : Book σ) : Event.ProposalProgress × Book σ :=
  office.announceProposal proposal creator (.created title) book

def finalizeProposal (office : Office σ) (proposal : ProposalId) (creator : HolderId)
    (passed : Bool) (book : Book σ) : Event.ProposalProgress × Book σ :=
  office.announceProposal proposal creator (.finalized passed) book

def claimsDescription (office : Office σ) : String :=
  s!"ClaimService \x7b dispatcher: {office.dispatcher.description} \x7d"

def proposalsDescription (office : Office σ) : String :=
  s!"ProposalService \x7b dispatcher: {office.dispatcher.description} \x7d"

end Office

end PolicyBook
