import PolicyBook.Proofs.Interleaving.Alone
import PolicyBook.Proofs.Interleaving.Growth
import PolicyBook.Proofs.Lists
import PolicyBook.Proofs.Wiring
/-!
Notifications and the audit trail tell one story.

Calls that are made one after another tell with their answers what they have published: a
transition, the progress of a claim or of a proposal. The usual listeners hear of exactly these
events. So the inbox, the trail and the records agree with the answers after any number of calls,
however many of them fail and however much the trail has dropped.

* **`Call.alone_tells`** — what one call does is what its answer tells;
* **`Office.serve_tells`** — the same for calls in a row;
* **`Office.serve_isOneStory`** — the notifications, the trail and the stored versions beside the
  events that the answers tell.
-/
namespace PolicyBook

open Policy Dispatch

variable {σ τ : Type}

/-- Calls one after another, each finished before the next one begins: their answers, and the book
behind the last one. -/
def Office.serve (office : Office σ) : List Call → Book σ → List Operation × Book σ
  | [], book => ([], book)
  | call :: rest, book =>
    let (op, book) := call.alone office book
    let (ops, book) := office.serve rest book
    (op :: ops, book)

/-- The event that a call has published, as its answer tells it: that of the last transition of the
record, or that of the announced progress. -/
def Operation.event? : Operation → Option Event
  | apply (.finished (.ok r)) => r.transitions.getLast?.map (Apply.event r)
  | announce (.finished (.ok payload)) => some (.of payload)
  | _ => none

/-- What an answer tells: a record its last transition, under its version, and the progress of a
claim or of a proposal itself. No other answer tells an event. -/
def Operation.Tells : Operation → Option Event → Prop
  | apply (.finished (.ok r)), told =>
    ∃ e t, told = some e ∧ r.transitions.getLast? = some t ∧ e.TellsOf r t r.version
  | announce (.finished (.ok payload)), told =>
    ∃ e, told = some e ∧ e.name = payload.name ∧ e.payload = payload
  | _, told => told = none

/-- The version of the record of a policy; zero without a record. -/
def Book.version (book : Book σ) (id : PolicyId) : Nat :=
  ((book.store.find? id).map Record.version).getD 0

/-! ### One call -/

/-- From one book to another these events were published, their listeners were called, and they tell
of every version that was saved in between. -/
structure Book.Advances (office : Office σ) (before : Book σ) (events : List Event)
    (after : Book σ) : Prop where
  published_eq : after.published = before.published ++ events
  desk_eq : after.desk =
    events.foldl (fun desk e => (office.dispatcher.publish e Dispatch.atOnce desk).2) before.desk
  version_le : ∀ id, before.version id ≤ after.version id
  versions_eq : ∀ id, Event.versions id events =
    List.range' (before.version id + 1) (after.version id - before.version id)

namespace Book.Advances

variable {office : Office σ} {book next last : Book σ}

/-- A book of which only the records or the cached figures differ, and no version. -/
theorem of_silent (hpublished : next.published = book.published) (hdesk : next.desk = book.desk)
    (hversion : ∀ id, next.version id = book.version id) : Advances office book [] next where
  published_eq := by rw [hpublished, List.append_nil]
  desk_eq := hdesk
  version_le id := Nat.le_of_eq (hversion id).symm
  versions_eq id := by rw [hversion id, Nat.sub_self]; rfl

theorem of_progress {payload : Event.Payload} (h : payload.policyChange? = none) :
    Advances office book [.of payload] (office.publish (.of payload) book) where
  published_eq := rfl
  desk_eq := rfl
  version_le _ := Nat.le_refl _
  versions_eq id := by
    show Event.versions id [.of payload] = List.range' _ (book.version id - book.version id)
    rw [Nat.sub_self]
    simp [Event.versions, Event.changes, Event.of, h]

theorem of_save {r kept : Record} {change : Transition} {store : Store}
    (hsave : book.store.save r = .ok (kept, store)) :
    Advances office book [Apply.event kept change]
      (office.publish (Apply.event kept change) (office.invalidate { book with store })) := by
  obtain ⟨stored, hfound, hversion, rfl⟩ := Store.save_eq_ok hsave
  have hbefore : book.version r.id = r.version := by
    rw [version, hfound, ← hversion]
    rfl
  have hafter (id : PolicyId) : Book.version { book with store } id =
      if id = r.id then r.version + 1 else book.version id := by
    rw [version, Store.find?_save hsave]
    split <;> rfl
  refine ⟨rfl, rfl, fun id => ?_, fun id => ?_⟩
  · show book.version id ≤ Book.version { book with store } id
    rw [hafter]
    split
    · next hid =>
      rw [hid, hbefore]
      exact Nat.le_succ _
    · exact Nat.le_refl _
  · show _ = List.range' _ (Book.version { book with store } id - book.version id)
    rw [hafter, Event.versions_of_change id rfl]
    show (if r.id = id then [r.version + 1] else []) = _
    by_cases hid : id = r.id
    · subst hid
      rw [if_pos rfl, if_pos rfl, hbefore, Nat.add_sub_cancel_left]
      rfl
    · rw [if_neg hid, if_neg (Ne.symm hid), Nat.sub_self]
      rfl

theorem trans {events more : List Event} (h : Advances office book events next)
    (h' : Advances office next more last) : Advances office book (events ++ more) last where
  published_eq := by rw [h'.published_eq, h.published_eq, List.append_assoc]
  desk_eq := by rw [h'.desk_eq, h.desk_eq, List.foldl_append]
  version_le id := Nat.le_trans (h.version_le id) (h'.version_le id)
  versions_eq id := by
    have hle := h.version_le id
    have hle' := h'.version_le id
    -- the second row of versions begins where the first one ends
    have hjoin : next.version id + 1 =
        book.version id + 1 + (next.version id - book.version id) := by omega
    rw [Event.versions_append, h.versions_eq, h'.versions_eq, hjoin, List.range'_append_1]
    congr 1
    omega

end Book.Advances

/-- A request fails and leaves the book as it is, or the record behind its transition is saved and
the transition published. -/
theorem Office.apply_cases (office : Office σ) (request : Request) (book : Book σ) :
    (∃ failure, office.apply request book = (.error failure, book)) ∨
      ∃ (stored : Record) (change : Transition) (store : Store),
        book.store.save (stored.apply change) = .ok (stored.advance change, store) ∧
        office.apply request book = (.ok (stored.advance change),
          office.publish (Apply.event (stored.advance change) change)
            (office.invalidate { book with store })) := by
  unfold Office.apply
  cases hload : book.store.load request.policy with
  | error fault => exact .inl ⟨.store fault, rfl⟩
  | ok stored =>
    cases hjudged : office.table.transition stored.state request.action request.roles
        request.reason request.now with
    | error denial => exact .inl ⟨.denied denial, by simp only [hjudged]⟩
    | ok change =>
      cases hsave : book.store.save (stored.apply change) with
      | error fault => exact .inl ⟨.store fault, by simp only [hjudged, hsave]⟩
      | ok saved =>
        obtain ⟨kept, store⟩ := saved
        obtain ⟨-, -, -, rfl⟩ := Store.save_eq_ok hsave
        exact .inr ⟨stored, change, store, hsave, by simp only [hjudged, hsave]; rfl⟩

theorem Policy.Record.getLast?_advance (stored : Record) (change : Transition) :
    (stored.advance change).transitions.getLast? = some change := by
  rw [(Record.took_advance stored change).transitions]
  exact List.getLast?_concat

theorem Office.apply_tells (office : Office σ) (request : Request) (book : Book σ) :
    Book.Advances office book
      (Operation.apply (.finished (office.apply request book).1)).event?.toList
      (office.apply request book).2 := by
  rcases office.apply_cases request book with ⟨failure, happly⟩ |
    ⟨stored, change, store, hsave, happly⟩
  · rw [happly]
    exact .of_silent rfl rfl fun _ => rfl
  · rw [happly]
    simp only [Operation.event?, Record.getLast?_advance]
    exact .of_save hsave

theorem Office.apply_answers (office : Office σ) (request : Request) (book : Book σ) :
    (Operation.apply (.finished (office.apply request book).1)).Tells
      (Operation.apply (.finished (office.apply request book).1)).event? := by
  rcases office.apply_cases request book with ⟨failure, happly⟩ |
    ⟨stored, change, store, -, happly⟩
  · rw [happly]
    rfl
  · rw [happly]
    simp only [Operation.event?, Record.getLast?_advance]
    exact ⟨_, change, rfl, Record.getLast?_advance stored change,
      Event.tellsOf_ofTransition _ change _⟩

theorem Call.alone_tells (office : Office σ) (call : Call) (book : Book σ) :
    Book.Advances office book (call.alone office book).1.event?.toList
      (call.alone office book).2 := by
  cases call with
  | create id holder premium now =>
    simp only [alone, Office.create]
    cases hinsert : book.store.insert (.draft id holder premium now) with
    | error fault => exact .of_silent rfl rfl fun _ => rfl
    | ok store =>
      refine .of_silent rfl rfl fun other => ?_
      -- a draft has the version that a missing record counts as
      show Book.version { book with store } other = book.version other
      rw [Book.version, Store.find?_insert hinsert, Book.version]
      split
      · next hid =>
        rw [hid, Store.find?_of_insert hinsert]
        rfl
      · rfl
  | apply request => exact office.apply_tells request book
  | dashboard =>
    simp only [alone, Office.dashboard]
    split <;> exact .of_silent rfl rfl fun _ => rfl
  | submitClaim claim policy =>
    simp only [alone, Office.submitClaim]
    cases Office.record book policy with
    | error failure => exact .of_silent rfl rfl fun _ => rfl
    | ok r => exact .of_progress rfl
  | approveClaim | rejectClaim | settleClaim | createProposal | finalizeProposal =>
    exact .of_progress rfl

theorem Call.alone_answers (office : Office σ) (call : Call) (book : Book σ) :
    (call.alone office book).1.Tells (call.alone office book).1.event? := by
  cases call with
  | create id holder premium now => rfl
  | apply request => exact office.apply_answers request book
  | dashboard => rfl
  | submitClaim claim policy =>
    simp only [alone, Office.submitClaim]
    cases Office.record book policy with
    | error failure => rfl
    | ok r => exact ⟨_, rfl, rfl, rfl⟩
  | approveClaim | rejectClaim | settleClaim | createProposal | finalizeProposal =>
    exact ⟨_, rfl, rfl, rfl⟩

/-! ### Calls in a row -/

theorem Office.serve_tells (office : Office σ) (calls : List Call) (book : Book σ) :
    Book.Advances office book ((office.serve calls book).1.filterMap Operation.event?)
      (office.serve calls book).2 := by
  induction calls generalizing book with
  | nil => exact .of_silent rfl rfl fun _ => rfl
  | cons call rest ih =>
    have hfirst := call.alone_tells office book
    have hrest := ih (call.alone office book).2
    have hevents : (office.serve (call :: rest) book).1.filterMap Operation.event? =
        (call.alone office book).1.event?.toList ++
          (office.serve rest (call.alone office book).2).1.filterMap Operation.event? := by
      show ((call.alone office book).1 :: _).filterMap _ = _
      rw [List.filterMap_cons]
      cases (call.alone office book).1.event? <;> rfl
    rw [hevents]
    exact hfirst.trans hrest

theorem Office.serve_answers (office : Office σ) (calls : List Call) (book : Book σ) :
    ∀ op ∈ (office.serve calls book).1, op.Tells op.event? := by
  induction calls generalizing book with
  | nil => exact fun op hop => absurd hop List.not_mem_nil
  | cons call rest ih =>
    intro op hop
    rcases List.mem_cons.1 hop with rfl | hrest
    · exact call.alone_answers office book
    · exact ih (call.alone office book).2 op hrest

/-- The inbox, the trail and the records of a book tell the same events. -/
structure Book.IsOneStory (book : Book (Desk τ)) (limit : Nat) (events : List Event) : Prop where
  /-- These were published, and nothing else. -/
  published_eq : book.published = events
  /-- There is one notification for each of them, in their order, to the person concerned and with
  the category, the title and the message that the event is worded in. -/
  notified : book.desk.inbox.items.map (fun n => (n.user, n.content)) = events.map Event.notice
  /-- The trail has recorded them all, and retains the last entries of their chain. -/
  recorded_eq : book.desk.trail.recorded = events.length
  isWindow : book.desk.trail.IsWindow limit events
  /-- What it retains tells the last of them, by name and payload. -/
  told : book.desk.trail.entries.map Audit.Entry.told <:+ events
  /-- The versions of a policy that it retains are consecutive and end with the version of the
  record. -/
  versions : ∀ id, book.desk.trail.versions id ≠ [] →
    ∃ r, book.store.find? id = some r ∧ (book.desk.trail.versions id).length ≤ r.version ∧
      book.desk.trail.versions id =
        List.range' (r.version + 1 - (book.desk.trail.versions id).length)
          (book.desk.trail.versions id).length

theorem Book.Advances.isOneStory {table : Table} {config : Config}
    {before after : List (Event.Name × Bystander τ)} {supply : Supply} {other : τ}
    {start book : Book (Desk τ)} {events : List Event}
    (h : Advances (.wired table config before after) start events book)
    (hpublished : start.published = []) (hdesk : start.desk = .new config supply other) :
    book.IsOneStory config.auditCapacity events := by
  have hheard : book.desk.HasHeard config.auditCapacity events := by
    rw [h.desk_eq, hdesk]
    exact (Desk.HasHeard.new config supply other).publishAll _
  constructor
  case published_eq => rw [h.published_eq, hpublished, List.nil_append]
  case notified => exact hheard.notified
  case recorded_eq => rw [hheard.retains.hasRecorded.recorded_eq, List.length_reverse]
  case isWindow => exact hheard.retains.isWindow hheard.capacity_eq
  case told =>
    rw [hheard.retains.told_eq]
    exact List.drop_suffix _ _
  case versions =>
    intro id hne
    have hsuffix := hheard.versions_suffix id
    rw [h.versions_eq] at hsuffix
    obtain ⟨hle, heq⟩ := eq_range'_of_suffix hsuffix
    have hpos := List.length_pos_iff.2 hne
    have hmono := h.version_le id
    -- some version was saved, so there is a record
    cases hr : book.store.find? id with
    | none =>
      have hzero : book.version id = 0 := by
        rw [Book.version, hr]
        rfl
      omega
    | some r =>
      have hversion : book.version id = r.version := by
        rw [Book.version, hr]
        rfl
      refine ⟨r, rfl, by omega, heq.trans ?_⟩
      congr 1
      omega

/-- Whatever calls are made one after another, and whatever other listeners there are, the
notifications, the audit trail and the records tell the events that the answers tell. -/
theorem Office.serve_isOneStory (table : Table) (config : Config)
    (before after : List (Event.Name × Bystander τ)) (supply : Supply) (other : τ)
    (store : Store) (cache : Cache) (calls : List Call) :
    let office := Office.wired table config before after
    let result := office.serve calls ⟨store, cache, [], .new config supply other⟩
    result.2.IsOneStory config.auditCapacity (result.1.filterMap Operation.event?) ∧
      ∀ op ∈ result.1, op.Tells op.event? := by
  intro office result
  exact ⟨(office.serve_tells calls _).isOneStory rfl rfl, office.serve_answers calls _⟩

end PolicyBook
