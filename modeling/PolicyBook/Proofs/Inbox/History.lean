import PolicyBook.Lifecycle.Standard
import PolicyBook.Proofs.Figures
import PolicyBook.Proofs.Handles
import PolicyBook.Proofs.History
import PolicyBook.Proofs.Inbox.Messages
/-!
The inbox gives account of its history.

Because no two messages have one identifier, marking reaches one message and no other, and an
identifier from before the messages were removed reaches none. What is shown and what is counted
follows from what remains of the messages; who shares the inbox makes no difference.

* **`stays_read`** — a message that was read is shown as it was;
* **`sum_unread`** — unread messages can be counted user by user;
* **`isAccount_after`** — what is answered after calls, whatever they were;
* **`isShared`** — the same for every program that shares inboxes through handles.
-/
namespace PolicyBook

open Handles

namespace Inbox

variable {supply : Supply} {past before behind : List Call}

/-! ### Answers -/

/-- What an inbox answers after calls. -/
structure IsAccount (supply : Supply) (past : List Call) (inbox : Inbox) : Prop where
  /-- What was written since the messages were last removed is shown, in the order in which it was
  written; to each user what is addressed to him, so that one user sees each message. -/
  all : (Call.all.on inbox).1 = .messages (shown supply past)
  ofUser : ∀ user, ((Call.ofUser user).on inbox).1 =
    .messages ((shown supply past).filter fun n => n.user = user)
  one_user : ∀ n ∈ shown supply past, ∃! user, n ∈ inbox.ofUser user
  /-- A mark is set on the one message with the identifier, if there is one; setting it again makes
  no difference. -/
  nodup : ((shown supply past).map Notification.id).Nodup
  mark_found : ∀ id, ∃ found, ((Call.mark id).on inbox).1 = .marked found ∧
    (found = true ↔ ∃ n ∈ shown supply past, n.id = id)
  mark_changes : ∀ id, ((Call.mark id).on inbox).2.items =
    (shown supply past).map fun n => if n.id = id then { n with read := true } else n
  mark_again : ∀ id, (Call.mark id).on ((Call.mark id).on inbox).2 = (Call.mark id).on inbox
  /-- A message that was shown as read never changes any more. -/
  stays_read : ∀ before behind, past = before ++ behind → ∀ n ∈ shown supply before,
    n.read = true → ∀ later ∈ shown supply past, later.id = n.id → later = n
  /-- An identifier from before the messages were removed has no effect. -/
  mark_cleared : ∀ before behind, past = before ++ .clear :: behind →
    ∀ w ∈ writings supply 0 before, (Call.mark w.id).on inbox = (.marked false, inbox)
  /-- What is counted are the messages to the user that were never marked. Of users that make up all
  who are addressed, the counts make up all unread messages. -/
  unread : ∀ user, ((Call.unread user).on inbox).1 =
    .count ((remaining supply 0 past).countP fun w => w.message.user = user && !w.isMarked)
  unread_sum : ∀ users : List HolderId, users.Nodup → (∀ n ∈ shown supply past, n.user ∈ users) →
    (users.map inbox.unread).sum = (shown supply past).countP fun n => !n.read

theorem mem_ofUser_iff {inbox : Inbox} {user : HolderId} {n : Notification} :
    n ∈ inbox.ofUser user ↔ n ∈ inbox.items ∧ n.user = user := by
  simp [Inbox.ofUser]

theorem stays_read (hfresh : supply.IsFresh (writeCount (before ++ behind)))
    {n later : Notification} (hn : n ∈ shown supply before) (hread : n.read = true)
    (hlater : later ∈ shown supply (before ++ behind)) (hid : later.id = n.id) : later = n := by
  have hids := nodup_map_id_append hfresh
  have hnid : n.id ∈ (writings supply 0 before).map Writing.id :=
    (map_id_shown_sublist supply before).subset (List.mem_map_of_mem hn)
  rw [shown_append hfresh, List.mem_append] at hlater
  rcases hlater with hold | hnew
  · unfold survivors at hold
    split at hold
    · exact absurd hold List.not_mem_nil
    · obtain ⟨m, hm, rfl⟩ := List.mem_map.1 hold
      have hnodup := (map_id_shown_sublist supply before).nodup (List.nodup_append.1 hids).1
      obtain rfl := List.inj_on_of_nodup_map hnodup hm hn hid
      rw [hread, Bool.true_or, ← hread]
  · -- a message that was written later has another identifier
    obtain ⟨w, hw, rfl⟩ := List.mem_map.1 hnew
    have hwid : w.id ∈ (writings supply (writeCount before) behind).map Writing.id :=
      List.mem_map_of_mem (List.mem_filter.1 hw).1
    exact absurd hid.symm ((List.nodup_append.1 hids).2.2 _ hnid _ hwid)

/-- What was written before the messages were removed is not found among those that are there. -/
theorem not_mem_of_cleared (hfresh : supply.IsFresh (writeCount (before ++ .clear :: behind)))
    {w : Writing} (hw : w ∈ writings supply 0 before) :
    w.id ∉ (shown supply (before ++ .clear :: behind)).map Notification.id := by
  intro hmem
  have hids := nodup_map_id_append hfresh
  rw [shown_append hfresh, show survivors (.clear :: behind) (shown supply before) = [] from rfl,
    List.nil_append, List.map_map] at hmem
  exact (List.nodup_append.1 hids).2.2 _ (List.mem_map_of_mem hw) _
    (((List.filter_sublist).map _).subset hmem) rfl

theorem sum_unread (inbox : Inbox) {users : List HolderId} (husers : users.Nodup)
    (hall : ∀ n ∈ inbox.items, n.user ∈ users) :
    (users.map inbox.unread).sum = inbox.items.countP fun n => !n.read := by
  have hunread (user : HolderId) : inbox.unread user =
      ((inbox.items.filter fun n => !n.read).filter fun n => n.user = user).length := by
    rw [Inbox.unread, List.countP_eq_length_filter, List.filter_filter]
  rw [List.map_congr_left fun user _ => hunread user, List.countP_eq_length_filter]
  exact length_by_key husers fun n hn => hall n (List.mem_filter.1 hn).1

theorem isAccount_after (hfresh : supply.IsFresh (writeCount past)) :
    IsAccount supply past (after supply past) := by
  have hitems := items_after hfresh
  have hids : ((shown supply past).map Notification.id).Nodup :=
    (map_id_shown_sublist supply past).nodup (nodup_map_id_writings hfresh)
  constructor
  case all => rw [Call.on, hitems]
  case ofUser =>
    intro user
    rw [Call.on, Inbox.ofUser, hitems]
  case one_user =>
    intro n hn
    rw [← hitems] at hn
    refine ⟨n.user, mem_ofUser_iff.2 ⟨hn, rfl⟩, fun user huser => ?_⟩
    exact (mem_ofUser_iff.1 huser).2.symm
  case nodup => exact hids
  case mark_found =>
    intro id
    refine ⟨_, rfl, ?_⟩
    rw [contains_iff, hitems, List.mem_map]
  case mark_changes =>
    intro id
    rw [← markFirst_eq_map hids, ← hitems]
    rfl
  case mark_again =>
    intro id
    rw [Call.on, Call.on, contains_markRead, markRead, markRead, markFirst_markFirst]
  case stays_read =>
    rintro before behind rfl n hn hread later hlater hid
    exact stays_read hfresh hn hread hlater hid
  case mark_cleared =>
    rintro before behind rfl w hw
    have hnot := not_mem_of_cleared hfresh hw
    rw [← hitems] at hnot
    have hmissing : (after supply (before ++ .clear :: behind)).contains w.id = false := by
      rwa [← Bool.not_eq_true, contains_iff]
    rw [Call.on, hmissing, markRead, markFirst_eq_self hnot]
  case unread =>
    intro user
    rw [Call.on, Inbox.unread, hitems, shown, List.countP_map]
    rfl
  case unread_sum =>
    intro users husers hall
    rw [← hitems] at hall ⊢
    exact sum_unread _ husers hall

/-! ### Programs -/

/-- The memory of a program that shares inboxes, each with a supply of its own. -/
def memory (supplies : Nat → Supply) (uses : List (Use Call)) : Memory Inbox :=
  run Call.on (.before fun place => empty (supplies place)) uses

def asked (supplies : Nat → Supply) (place : Nat) (uses : List (Use Call)) : List Call :=
  history Call.on place (.before fun place => empty (supplies place)) uses

theorem things_memory (supplies : Nat → Supply) (place : Nat) (uses : List (Use Call)) :
    (memory supplies uses).things place = after (supplies place) (asked supplies place uses) :=
  things_run _ uses place

/-- Hearing of an event is what the notifier does. -/
theorem notifier_handle {τ : Type} (event : Event) (desk : Desk τ) : notifier.handle event desk =
    (.done, { desk with inbox := ((Call.hear event).on desk.inbox).2 }) := rfl

/-- A program has come to an inbox by a handle. -/
structure IsShared (supplies : Nat → Supply) (uses : List (Use Call)) (handle place : Nat) :
    Prop where
  /-- What was asked of the inbox, through whichever handles, makes one history, and what it answers
  is the account of that. -/
  account : IsAccount (supplies place) (asked supplies place uses)
    ((memory supplies uses).things place)
  answer : ∀ call, (Use.ask handle call).on Call.on (memory supplies uses) =
    (some (call.on ((memory supplies uses).things place)).1,
      (memory supplies uses).write place (call.on ((memory supplies uses).things place)).2)
  /-- The handle and its clones remain handles to this inbox. -/
  remains : ∀ more, (memory supplies (uses ++ more)).handles[handle]? = some place
  clone : (memory supplies (uses ++ [.clone handle])).handles[
    (memory supplies uses).handles.length]? = some place
  /-- A listener that has the inbox does with an event what is done when it is heard of. -/
  listens : ∀ (τ : Type) (desk : Desk τ) (event : Event),
    desk.inbox = (memory supplies uses).things place → notifier.handle event desk =
      (.done, { desk with
        inbox := ((Call.hear event).on ((memory supplies uses).things place)).2 })

/-- Whatever a program does with inboxes, each of them gives account of what was asked of it. -/
theorem isShared {supplies : Nat → Supply} {uses : List (Use Call)} {handle place : Nat}
    (hplace : (memory supplies uses).handles[handle]? = some place)
    (hfresh : (supplies place).IsFresh (writeCount (asked supplies place uses))) :
    IsShared supplies uses handle place where
  account := by
    rw [things_memory]
    exact isAccount_after hfresh
  answer call := ask_on hplace call
  remains more := by
    rw [memory, run, List.foldl_append]
    exact getElem?_handles_run hplace more
  clone := by
    rw [memory, run, List.foldl_append]
    exact clone_handles hplace
  listens τ desk event hdesk := by rw [notifier_handle, hdesk]

def errandSupply : Supply := .counting 0 .epoch

/-- A message to one user is removed and another is written. The user marks both, through different
handles, while somebody else is told of an event. -/
def errands : List (Use Call) :=
  [.create, .clone 0,
    .ask 1 (.create ⟨"alice"⟩ ⟨.claim, "Claim Submitted", "filed"⟩), .ask 0 .clear,
    .ask 1 (.create ⟨"alice"⟩ ⟨.claim, "Claim Approved", "approved"⟩),
    .ask 0 (.hear (.of (.proposal ⟨⟨"prop-1"⟩, ⟨"bob"⟩, .finalized true⟩))),
    .ask 1 (.mark (errandSupply.id 0)), .ask 0 (.mark (errandSupply.id 1))]

theorem errands_told : ["alice", "bob"].map (fun name =>
      ((Use.ask 1 (.unread ⟨name⟩)).on Call.on (memory (fun _ => errandSupply) errands)).1) =
    [some (.count 0), some (.count 1)] := by
  have h : IsShared (fun _ => errandSupply) errands 1 0 :=
    isShared rfl (by unfold Supply.IsFresh; decide)
  simp only [List.map_cons, List.map_nil, h.answer, h.account.unread]
  decide

end Inbox

end PolicyBook
