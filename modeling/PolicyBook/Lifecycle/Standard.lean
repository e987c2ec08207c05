import PolicyBook.Audit
import PolicyBook.Config
import PolicyBook.Inbox
import PolicyBook.Lifecycle.Announce
import PolicyBook.Lifecycle.Apply
import PolicyBook.Lifecycle.Create
import PolicyBook.Lifecycle.Figures
/-!
The usual listeners: one notifies the person concerned, one records the event in the audit trail.

Both hear of every event, the notifier first. Other listeners may be registered beside them; they
keep a state of their own and touch neither the inbox nor the trail.
-/
namespace PolicyBook

open Dispatch

/-- The state of the usual listeners, and of others beside them. -/
structure Desk (τ : Type) where
  inbox : Inbox
  trail : Audit.Trail
  other : τ

variable {τ : Type}

/-- Notifies the person whom an event concerns. -/
def notifier : Listener (Desk τ) where
  name := "notifications"
  handle event desk :=
    let content := Notification.about event.payload
    (.done, { desk with inbox := (desk.inbox.create event.payload.recipient content).2 })

def auditor : Listener (Desk τ) where
  name := "audit-trail"
  handle event desk :=
    match desk.trail.append event with
    | .ok (_, trail) => (.done, { desk with trail })
    | .error x => (.failed (.uncanonical x), desk)

def otherListener (name : String) (handle : Event → τ → Outcome × τ) : Listener (Desk τ) where
  name
  handle event desk :=
    let (outcome, other) := handle event desk.other
    (outcome, { desk with other })

/-- Register the usual listeners under every name. -/
def Dispatch.Dispatcher.withStandard (d : Dispatcher (Desk τ)) : Dispatcher (Desk τ) :=
  (d.subscribeAll Event.Name.all notifier).subscribeAll Event.Name.all auditor

def Desk.new (config : Config) (supply : Supply) (other : τ) : Desk τ :=
  ⟨.empty supply, .new config.auditCapacity, other⟩

def Office.standard (config : Config) : Office (Desk τ) where
  table := .standard
  dashboardKey := config.dashboardKey
  dispatcher := (Dispatcher.empty config.slowMillis).withStandard

end PolicyBook
