import PolicyBook.Lifecycle.Apply
/-!
What drafts, transitions and events say, field by field.

A record is drafted, takes on one transition after the other, and every transition that it took on
is told. Each of the three is said here once for all the fields, without the functions that do it:

* **`Record.IsDraft`** — a record is the draft that was asked for;
* **`Record.Took`** — a record took on a transition, and nothing else has changed;
* **`Event.PolicyChange.Tells`**, **`Event.TellsOf`** — what is told is the transition of a record.

`Record.advance` is a record behind one more transition, as the store keeps it.
-/
namespace PolicyBook

open Policy

namespace Policy.Record

/-! ### Drafts -/

structure IsDraft (r : Record) (id : PolicyId) (holder : HolderId) (premium : Nat)
    (now : Instant) : Prop where
  id_eq : r.id = id
  holder_eq : r.holder = holder
  premium_eq : r.premium = premium
  state_eq : r.state = .draft
  version_eq : r.version = 0
  createdAt_eq : r.createdAt = now
  updatedAt_eq : r.updatedAt = now
  transitions_eq : r.transitions = []

theorem isDraft_draft (id : PolicyId) (holder : HolderId) (premium : Nat) (now : Instant) :
    (draft id holder premium now).IsDraft id holder premium now :=
  ⟨rfl, rfl, rfl, rfl, rfl, rfl, rfl, rfl⟩

/-! ### Transitions -/

/-- A record took on a transition, and nothing but what belongs to a transition has changed. -/
structure Took (stored : Record) (change : Transition) (r : Record) : Prop where
  version : r.version = stored.version + 1
  transitions : r.transitions = stored.transitions ++ [change]
  shown : r.state = change.target ∧ r.updatedAt = change.madeAt
  kept : r.id = stored.id ∧ r.holder = stored.holder ∧ r.premium = stored.premium ∧
    r.createdAt = stored.createdAt

/-- A record after a transition, as the store keeps it. -/
def advance (r : Record) (t : Transition) : Record :=
  { r.apply t with version := r.version + 1 }

theorem took_advance (stored : Record) (change : Transition) :
    Took stored change (stored.advance change) :=
  ⟨rfl, rfl, ⟨rfl, rfl⟩, rfl, rfl, rfl, rfl⟩

@[simp]
theorem version_foldl_advance (r : Record) (changes : List Transition) :
    (changes.foldl advance r).version = r.version + changes.length := by
  induction changes generalizing r with
  | nil => rfl
  | cons change rest ih =>
    rw [List.foldl_cons, ih, List.length_cons, (took_advance r change).version]
    omega

theorem transitions_foldl_advance (r : Record) (changes : List Transition) :
    (changes.foldl advance r).transitions = r.transitions ++ changes := by
  induction changes generalizing r with
  | nil => exact (List.append_nil _).symm
  | cons change rest ih =>
    rw [List.foldl_cons, ih, (took_advance r change).transitions, List.append_assoc]
    rfl

theorem kept_foldl_advance (r : Record) (changes : List Transition) :
    (changes.foldl advance r).id = r.id ∧ (changes.foldl advance r).holder = r.holder ∧
      (changes.foldl advance r).premium = r.premium ∧
      (changes.foldl advance r).createdAt = r.createdAt := by
  induction changes generalizing r with
  | nil => exact ⟨rfl, rfl, rfl, rfl⟩
  | cons change rest ih => exact ih (r.advance change)

end Policy.Record

/-! ### Events -/

namespace Event

/-- What is told is a transition of a record, under a version. -/
structure PolicyChange.Tells (c : PolicyChange) (r : Record) (t : Transition)
    (version : Nat) : Prop where
  policy_eq : c.policy = r.id
  holder_eq : c.holder = r.holder
  source_eq : c.source = t.source
  target_eq : c.target = t.target
  action_eq : c.action = t.action
  actor_eq : c.actor = t.actor
  reason_eq : c.reason = t.reason
  version_eq : c.version = version
  occurredAt_eq : c.occurredAt = t.madeAt

theorem PolicyChange.tells_ofTransition (r : Record) (t : Transition) (version : Nat) :
    (ofTransition r.id r.holder t version).Tells r t version :=
  ⟨rfl, rfl, rfl, rfl, rfl, rfl, rfl, rfl, rfl⟩

/-- An event tells of a transition, under the name of its action. -/
def TellsOf (e : Event) (r : Record) (t : Transition) (version : Nat) : Prop :=
  e.name = .ofAction t.action ∧ ∃ c, e.payload = .policy c ∧ c.Tells r t version

theorem tellsOf_ofTransition (r : Record) (t : Transition) (version : Nat) :
    (of (.policy (.ofTransition r.id r.holder t version))).TellsOf r t version :=
  ⟨rfl, _, rfl, PolicyChange.tells_ofTransition r t version⟩

end Event

end PolicyBook
