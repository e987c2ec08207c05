import PolicyBook.Lifecycle.Standard
import PolicyBook.Proofs.AuditWindow
import PolicyBook.Proofs.FanOut
/-!
The usual listeners among others.

An office may have any listeners before and behind the usual two. As long as these leave the inbox
and the trail alone, an event that is published reaches both, whatever becomes of the other calls:

* **`Office.publish_wired`** — publishing writes one notification and records one entry;
* **`Desk.HasHeard.publish`** — so the desk keeps an account of exactly the events that were
  published;
* **`Desk.HasHeard.changes_suffix`** — the changes of a policy that the trail lists are the last
  ones of those that were published.
-/
namespace PolicyBook

open Dispatch

variable {τ : Type}

/-! ### Listeners beside the usual ones -/

/-- A listener that leaves the inbox and the trail as they are. It may look at both, keep a state of
its own and end in any way. -/
structure Bystander (τ : Type) extends Listener (Desk τ) where
  inbox_eq : ∀ event desk, (handle event desk).2.inbox = desk.inbox
  trail_eq : ∀ event desk, (handle event desk).2.trail = desk.trail

def Bystander.ofOther (name : String) (handle : Event → τ → Outcome × τ) : Bystander τ where
  toListener := otherListener name handle
  inbox_eq _ _ := rfl
  trail_eq _ _ := rfl

def Dispatch.Dispatcher.beside (d : Dispatcher (Desk τ))
    (others : List (Event.Name × Bystander τ)) : Dispatcher (Desk τ) :=
  others.foldl (fun d other => d.subscribe other.1 other.2.toListener) d

/-- An office with the usual listeners, and bystanders registered before and after them. -/
def Office.wired (table : Table) (config : Config)
    (before after : List (Event.Name × Bystander τ)) : Office (Desk τ) where
  table
  dashboardKey := config.dashboardKey
  dispatcher := ((Dispatcher.empty config.slowMillis).beside before).withStandard.beside after

theorem Office.standard_eq_wired (config : Config) :
    (standard config : Office (Desk τ)) = wired .standard config [] [] := by
  simp only [standard, wired, Dispatcher.beside, List.foldl_nil]

namespace Dispatch.Dispatcher

theorem registrations_subscribeAll (d : Dispatcher (Desk τ)) (names : List Event.Name)
    (l : Listener (Desk τ)) :
    (d.subscribeAll names l).registrations =
      d.registrations ++ names.map fun name => (name, l) := by
  induction names generalizing d with
  | nil => exact (List.append_nil _).symm
  | cons name rest ih =>
    show ((d.subscribe name l).subscribeAll rest l).registrations = _
    rw [ih, subscribe, List.append_assoc]
    rfl

theorem registrations_beside (d : Dispatcher (Desk τ)) (others : List (Event.Name × Bystander τ)) :
    (d.beside others).registrations =
      d.registrations ++ others.map fun other => (other.1, other.2.toListener) := by
  induction others generalizing d with
  | nil => exact (List.append_nil _).symm
  | cons other rest ih =>
    show ((d.subscribe other.1 other.2.toListener).beside rest).registrations = _
    rw [ih, subscribe, List.append_assoc]
    rfl

def hearing (name : Event.Name) (others : List (Event.Name × Bystander τ)) : List (Bystander τ) :=
  (others.filter fun other => other.1 = name).map Prod.snd

theorem listeners_wired (table : Table) (config : Config)
    (before after : List (Event.Name × Bystander τ)) (name : Event.Name) :
    (Office.wired table config before after).dispatcher.listeners name =
      (hearing name before).map Bystander.toListener ++ notifier :: auditor ::
        (hearing name after).map Bystander.toListener := by
  have hothers (others : List (Event.Name × Bystander τ)) :
      ((others.map fun other => (other.1, other.2.toListener)).filter
        fun r => decide (r.1 = name)).map Prod.snd =
        (hearing name others).map Bystander.toListener := by
    rw [hearing, List.filter_map, List.map_map, List.map_map]
    rfl
  -- each of the usual listeners is registered under every name once
  have husual (l : Listener (Desk τ)) :
      ((Event.Name.all.map fun other => (other, l)).filter
        fun r => decide (r.1 = name)).map Prod.snd = [l] := by
    cases name <;> rfl
  simp only [listeners, Office.wired, withStandard, registrations_beside,
    registrations_subscribeAll, List.filter_append, List.map_append, hothers, husual]
  simp [empty]

/-- Bystanders leave inbox and trail alone, however their calls end. -/
theorem foldl_bystanders (event : Event) (others : List (Bystander τ)) (desk : Desk τ) :
    ((others.map Bystander.toListener).foldl (Listener.effect event) desk).inbox = desk.inbox ∧
      ((others.map Bystander.toListener).foldl (Listener.effect event) desk).trail = desk.trail := by
  induction others generalizing desk with
  | nil => exact ⟨rfl, rfl⟩
  | cons other rest ih =>
    obtain ⟨hinbox, htrail⟩ := ih (other.handle event desk).2
    exact ⟨hinbox.trans (other.inbox_eq event desk), htrail.trans (other.trail_eq event desk)⟩

end Dispatch.Dispatcher

theorem auditor_handle (event : Event) (desk : Desk τ) :
    auditor.handle event desk = (.done, { desk with trail := (desk.trail.grown event).trim }) := by
  simp only [auditor, Audit.Trail.append_eq]

theorem Office.publish_wired (table : Table) (config : Config)
    (before after : List (Event.Name × Bystander τ)) (event : Event) (elapsed : Nat → Nat)
    (desk : Desk τ) :
    let next := ((wired table config before after).dispatcher.publish event elapsed desk).2
    next.inbox =
      (desk.inbox.create event.payload.recipient (Notification.about event.payload)).2 ∧
      next.trail = (desk.trail.grown event).trim := by
  intro next
  let first := (Dispatcher.hearing event.name before).map Bystander.toListener
  let last := (Dispatcher.hearing event.name after).map Bystander.toListener
  let reached := first.foldl (Listener.effect event) desk
  let heard : Desk τ :=
    { (notifier.handle event reached).2 with trail := (reached.trail.grown event).trim }
  have hnext : next = last.foldl (Listener.effect event) heard := by
    show (Dispatcher.publish _ event elapsed desk).2 = _
    rw [Dispatcher.publish, Dispatcher.deliver_eq, Dispatcher.listeners_wired, List.foldl_append]
    show last.foldl (Listener.effect event)
      (auditor.handle event (notifier.handle event reached).2).2 = _
    rw [auditor_handle]
    rfl
  obtain ⟨hinbox, htrail⟩ := Dispatcher.foldl_bystanders event _ desk
  obtain ⟨hinbox', htrail'⟩ := Dispatcher.foldl_bystanders event
    (Dispatcher.hearing event.name after) heard
  rw [hnext]
  refine ⟨hinbox'.trans ?_, htrail'.trans ?_⟩
  · show (reached.inbox.create _ _).2 = _
    rw [show reached.inbox = desk.inbox from hinbox]
  · show (reached.trail.grown event).trim = _
    rw [show reached.trail = desk.trail from htrail]

/-- A listener in front of the usual ones that breaks off, and takes its time over it, keeps nothing
from them. -/
example (supply : Supply) :
    let broken : Bystander Unit := .ofOther "broken" fun _ other => (.brokeOff none, other)
    let office := Office.wired .standard .standard [(.claimApproved, broken)] []
    let event : Event := .of (.claim ⟨⟨"c"⟩, ⟨"h"⟩, .approved⟩)
    let elapsed : Nat → Nat := fun place => if place = 0 then 300000000 else 0
    let (warnings, desk) := office.dispatcher.publish event elapsed (.new .standard supply ())
    warnings = [⟨.claimApproved, "broken", .brokeOff none⟩,
      ⟨.claimApproved, "broken", .slow 300 250⟩] ∧
      desk.inbox.items.length = 1 ∧ desk.trail.recorded = 1 :=
  ⟨rfl, rfl, rfl⟩

/-! ### What was heard -/

/-- What an audit entry tells, without its place in the chain. -/
def Audit.Entry.told (e : Entry) : Event := ⟨e.event, e.payload⟩

def Event.changes (id : PolicyId) (events : List Event) : List PolicyChange :=
  (events.filterMap fun e => e.payload.policyChange?).filter fun c => c.policy = id

def Event.versions (id : PolicyId) (events : List Event) : List Nat :=
  (changes id events).map fun c => c.version

def Audit.Trail.changes (trail : Trail) (id : PolicyId) : List Event.PolicyChange :=
  (trail.ofPolicy id).filterMap fun e => e.payload.policyChange?

def Audit.Trail.versions (trail : Trail) (id : PolicyId) : List Nat :=
  (trail.changes id).map fun c => c.version

/-- What is written about an event: to whom, and what it says. -/
def Event.notice (e : Event) : HolderId × Notification.Content :=
  (e.payload.recipient, Notification.about e.payload)

/-- A desk has heard of these events, the oldest first, and of no others: the person concerned was
notified of each, and the trail, which was to retain so many entries, has recorded each. -/
structure Desk.HasHeard (desk : Desk τ) (limit : Nat) (events : List Event) : Prop where
  notified : desk.inbox.items.map (fun n => (n.user, n.content)) = events.map Event.notice
  retains : desk.trail.Retains events
  capacity_eq : desk.trail.capacity = max limit 1

namespace Audit

@[simp] theorem map_told_entriesFrom (sequence : Nat) (previous : Digest) (events : List Event) :
    (entriesFrom sequence previous events).map Entry.told = events := by
  induction events generalizing sequence previous with
  | nil => rfl
  | cons e rest ih => rw [entriesFrom, List.map_cons, ih, Entry.told]

theorem Trail.Retains.told_eq {trail : Trail} {past : List Event} (h : trail.Retains past) :
    trail.entries.map Entry.told =
      past.drop (past.length - retained trail.capacity past.length) := by
  rw [h.entries_eq, List.map_drop, wholeChain, map_told_entriesFrom]

/-- The entries of a policy tell of its changes; the others among them are about claims. -/
theorem Trail.changes_eq (trail : Trail) (id : PolicyId) :
    trail.changes id = Event.changes id (trail.entries.map Entry.told) := by
  rw [changes, ofPolicy, Event.changes, List.filterMap_map]
  induction trail.entries with
  | nil => rfl
  | cons e rest ih =>
    rw [List.filter_cons, List.filterMap_cons]
    cases hpayload : e.payload with
    | policy change =>
      by_cases hid : change.policy = id <;>
        simp_all [Entry.told, Event.Payload.policyId?, Event.Payload.policyChange?]
    | claim progress =>
      by_cases hid : progress.policyId? = some id <;>
        simp_all [Entry.told, Event.Payload.policyId?, Event.Payload.policyChange?]
    | proposal progress =>
      simp_all [Entry.told, Event.Payload.policyId?, Event.Payload.policyChange?]

end Audit

theorem Event.changes_append (id : PolicyId) (events more : List Event) :
    changes id (events ++ more) = changes id events ++ changes id more := by
  rw [changes, List.filterMap_append, List.filter_append]
  rfl

theorem Event.versions_append (id : PolicyId) (events more : List Event) :
    versions id (events ++ more) = versions id events ++ versions id more := by
  rw [versions, changes_append, List.map_append]
  rfl

theorem Event.versions_of_change (id : PolicyId) {e : Event} {c : PolicyChange}
    (h : e.payload = .policy c) : versions id [e] = if c.policy = id then [c.version] else [] := by
  by_cases hid : c.policy = id <;> simp [versions, changes, h, Payload.policyChange?, hid]

namespace Desk.HasHeard

variable {desk : Desk τ} {limit : Nat} {events : List Event}

theorem new (config : Config) (supply : Supply) (other : τ) :
    (Desk.new config supply other).HasHeard config.auditCapacity [] where
  notified := rfl
  retains := Audit.Trail.retains_new _
  capacity_eq := rfl

section

variable {table : Table} {config : Config} {before after : List (Event.Name × Bystander τ)}

theorem publish (h : desk.HasHeard limit events) (event : Event) :
    Desk.HasHeard ((Office.wired table config before after).dispatcher.publish event atOnce desk).2
      limit (events ++ [event]) := by
  obtain ⟨hinbox, htrail⟩ := Office.publish_wired table config before after event atOnce desk
  constructor
  case notified =>
    rw [hinbox, List.map_append, ← h.notified, Inbox.create, List.map_append]
    rfl
  case retains =>
    rw [htrail]
    exact h.retains.append event
  case capacity_eq =>
    rw [htrail, Audit.Trail.trim_capacity]
    exact h.capacity_eq

theorem publishAll (h : desk.HasHeard limit events) (more : List Event) :
    Desk.HasHeard
      (more.foldl
        (fun desk e => ((Office.wired table config before after).dispatcher.publish e atOnce desk).2)
        desk)
      limit (events ++ more) := by
  induction more generalizing desk events with
  | nil => rwa [List.append_nil]
  | cons e rest ih =>
    have hnext : Desk.HasHeard
        ((Office.wired table config before after).dispatcher.publish e atOnce desk).2 limit
        (events ++ [e]) := h.publish e
    have hrest := ih hnext
    rwa [List.append_assoc] at hrest

end

theorem changes_suffix (h : desk.HasHeard limit events) (id : PolicyId) :
    desk.trail.changes id <:+ Event.changes id events := by
  let lost := events.length - Audit.retained desk.trail.capacity events.length
  refine ⟨Event.changes id (events.take lost), ?_⟩
  rw [desk.trail.changes_eq, h.retains.told_eq, ← Event.changes_append, List.take_append_drop]

theorem versions_suffix (h : desk.HasHeard limit events) (id : PolicyId) :
    desk.trail.versions id <:+ Event.versions id events :=
  (h.changes_suffix id).map _

theorem changes_eq (h : desk.HasHeard limit events) (hle : events.length ≤ max limit 1)
    (id : PolicyId) : desk.trail.changes id = Event.changes id events := by
  have hall : Audit.retained desk.trail.capacity events.length = events.length := by
    rw [h.capacity_eq]
    exact if_pos hle
  rw [desk.trail.changes_eq, h.retains.told_eq, hall, Nat.sub_self, List.drop_zero]

end Desk.HasHeard

end PolicyBook
