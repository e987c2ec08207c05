import PolicyBook.Identity.Uuid
import PolicyBook.Refusal
/-!
The identifiers of policies, holders, claims and proposals.

Each kind of thing has its own type, so one cannot stand where another is expected. Policies are
numbered by the library; the other identifiers are texts that come from outside.
-/
namespace PolicyBook

structure PolicyId where
  uuid : Uuid
  deriving DecidableEq

/-- The identifier of the person who holds a policy and is told about it. -/
structure HolderId where
  text : String
  deriving DecidableEq, Repr

structure ClaimId where
  text : String
  deriving DecidableEq, Repr

structure ProposalId where
  text : String
  deriving DecidableEq, Repr

namespace PolicyId

instance : LT PolicyId := ⟨fun a b => a.uuid < b.uuid⟩

instance (a b : PolicyId) : Decidable (a < b) :=
  inferInstanceAs (Decidable (a.uuid < b.uuid))

def mark : String := "policy:"

def text (id : PolicyId) : String := mark ++ id.uuid.text

/-- Read an identifier, with or without its mark. -/
def parse (s : String) : Except Refusal PolicyId :=
  let cs := s.toList
  let bare := if mark.toList.isPrefixOf cs then cs.drop mark.length else cs
  match Uuid.ofText? (String.ofList bare) with
  | some uuid => .ok ⟨uuid⟩
  | none => .error (.malformedPolicyId s)

end PolicyId

end PolicyBook
