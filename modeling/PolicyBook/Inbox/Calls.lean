import PolicyBook.Event
import PolicyBook.Inbox
/-!
What can be asked of an inbox.

Messages are written directly or because an event is heard of; the person whom the event concerns is
told what it says. Everything else shows messages, counts them, or does something to those that are
there.
-/
namespace PolicyBook.Inbox

inductive Call where
  | create (user : HolderId) (content : Notification.Content)
  /-- Tell the person whom an event concerns. -/
  | hear (event : Event)
  | mark (id : Uuid)
  | clear
  | all
  | ofUser (user : HolderId)
  | unread (user : HolderId)
  deriving DecidableEq

inductive Answer where
  | done
  | written (n : Notification)
  | marked (found : Bool)
  | messages (ns : List Notification)
  | count (n : Nat)
  deriving DecidableEq

namespace Call

def on : Call → Inbox → Answer × Inbox
  | create user content, inbox =>
    let (n, inbox) := inbox.create user content
    (.written n, inbox)
  | hear event, inbox =>
    (.done, (inbox.create event.payload.recipient (Notification.about event.payload)).2)
  | mark id, inbox => (.marked (inbox.contains id), inbox.markRead id)
  | clear, inbox => (.done, inbox.clear)
  | all, inbox => (.messages inbox.items, inbox)
  | ofUser user, inbox => (.messages (inbox.ofUser user), inbox)
  | unread user, inbox => (.count (inbox.unread user), inbox)

def message? : Call → Option (HolderId × Notification.Content)
  | create user content => some (user, content)
  | hear event => some (event.payload.recipient, Notification.about event.payload)
  | mark _ | clear | all | ofUser _ | unread _ => none

def clears : Call → Bool
  | clear => true
  | create _ _ | hear _ | mark _ | all | ofUser _ | unread _ => false

def marks (id : Uuid) : Call → Bool
  | mark other => other = id
  | create _ _ | hear _ | clear | all | ofUser _ | unread _ => false

end Call

end PolicyBook.Inbox
