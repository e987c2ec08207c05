import PolicyBook.Notification
import PolicyBook.Supply
/-!
The inbox: what was written to everybody.

Messages stay in the order in which they were created; each user sees those that are addressed to
him (`Inbox.ofUser`). A message that is read never becomes unread again.
-/
namespace PolicyBook

structure Inbox where
  /-- Where the identifiers and times of messages come from. -/
  supply : Supply
  /-- The messages, oldest first. -/
  items : List Notification
  /-- How many messages were ever created. -/
  issued : Nat

namespace Inbox

def empty (supply : Supply) : Inbox := ⟨supply, [], 0⟩

/-- Write an unread message to a user. -/
def create (inbox : Inbox) (user : HolderId) (content : Notification.Content) :
    Notification × Inbox :=
  let n : Notification :=
    ⟨inbox.supply.id inbox.issued, user, content, false, inbox.supply.now inbox.issued⟩
  (n, { inbox with items := inbox.items ++ [n], issued := inbox.issued + 1 })

def ofUser (inbox : Inbox) (user : HolderId) : List Notification :=
  inbox.items.filter fun n => n.user = user

def clear (inbox : Inbox) : Inbox := { inbox with items := [] }

/-- Mark the first message of a list that has an identifier as read. -/
def markFirst (id : Uuid) : List Notification → List Notification
  | [] => []
  | n :: rest => if n.id = id then { n with read := true } :: rest else n :: markFirst id rest

def contains (inbox : Inbox) (id : Uuid) : Bool := inbox.items.any fun n => n.id = id

def markRead (inbox : Inbox) (id : Uuid) : Inbox :=
  { inbox with items := markFirst id inbox.items }

def unread (inbox : Inbox) (user : HolderId) : Nat :=
  inbox.items.countP fun n => n.user = user && !n.read

end Inbox

end PolicyBook
