import PolicyBook.Text.Quoted
/-!
Why a text is not taken for a name, an instant or an identifier.

Every reader of the library that explains itself fails with a `Refusal`; `Refusal.message` is the
one place where the explanations are worded. Where a text is no time stamp or no identifier at all,
the message ends with what the reader of its digits has to say. How that is worded is left open.
-/
namespace PolicyBook

inductive Refusal where
  | unknownRole (text : String)
  | unknownState (text : String)
  | unknownAction (text : String)
  | unknownEvent (text : String)
  /-- The time stamp does not end in the mark of universal time. -/
  | timeNotUniversal (text : String)
  | malformedTime (text : String)
  /-- The second lies outside the calendar. -/
  | secondOutOfRange (second : Int)
  | malformedPolicyId (text : String)
  deriving DecidableEq, Repr

namespace Refusal

open Text in
/-- How the message of a refusal begins; for most refusals this is the message. -/
def opening : Refusal → String
  | unknownRole text => s!"unknown role: {quoted text}"
  | unknownState text => s!"unknown policy state: {quoted text}"
  | unknownAction text => s!"unknown policy action: {quoted text}"
  | unknownEvent text => s!"unknown event name: {quoted text}"
  | timeNotUniversal text =>
    s!"validation error: timestamp must use Z suffix (UTC only), got: {quoted text}"
  | malformedTime text => s!"validation error: invalid RFC 3339 timestamp {quoted text}"
  | secondOutOfRange second => s!"validation error: invalid Unix timestamp: {second}"
  | malformedPolicyId text => s!"validation error: invalid policy id {quoted text}"

def isExplained : Refusal → Bool
  | malformedTime _ | malformedPolicyId _ => true
  | unknownRole _ | unknownState _ | unknownAction _ | unknownEvent _ | timeNotUniversal _
  | secondOutOfRange _ => false

/-- The wording of a refusal, with the explanation if it needs one. -/
def message (explanation : String) (r : Refusal) : String :=
  if r.isExplained then r.opening ++ ": " ++ explanation else r.opening

end Refusal

end PolicyBook
