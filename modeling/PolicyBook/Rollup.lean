import PolicyBook.Policy.Record
/-!
Figures computed from the records of a portfolio.

Premiums are summed up to the largest number of sixty-four bits and stay there. Only policies that
give cover count as active.
-/
namespace PolicyBook

open Policy

/-- A sum that stays at the largest number of sixty-four bits once it gets there. -/
def cappedSum (amounts : List Nat) : Nat :=
  amounts.foldl (fun sum n => min (sum + n) Text.maxWord) 0

/-- How many policies are in each state; a count may be missing when figures come from outside. -/
structure StateCounts where
  draft : Option Nat
  active : Option Nat
  renewed : Option Nat
  expired : Option Nat
  cancelled : Option Nat
  deriving DecidableEq, Repr

namespace StateCounts

def ofFn (count : State → Option Nat) : StateCounts where
  draft := count .draft
  active := count .active
  renewed := count .renewed
  expired := count .expired
  cancelled := count .cancelled

def get (counts : StateCounts) : State → Option Nat
  | .draft => counts.draft
  | .active => counts.active
  | .renewed => counts.renewed
  | .expired => counts.expired
  | .cancelled => counts.cancelled

def set (counts : StateCounts) (state : State) (n : Nat) : StateCounts :=
  ofFn fun s => if s = state then some n else counts.get s

@[simp]
theorem get_ofFn (count : State → Option Nat) (s : State) : (ofFn count).get s = count s := by
  cases s <;> rfl

@[simp]
theorem ofFn_get (counts : StateCounts) : ofFn counts.get = counts := rfl

/-- Read counts from the members of an object; of a repeated name the last one counts. -/
def ofMembers? (members : List (String × Json.Raw)) : Option StateCounts :=
  members.foldlM (fun counts (name, r) => do
    let state ← State.ofName? name
    let n ← read? r
    return counts.set state n) (ofFn fun _ => none)

end StateCounts

/-- Counts are an object with a member for every state that has a count. -/
instance : JsonForm StateCounts where
  encode counts :=
    .obj (State.all.filterMap fun s => (counts.get s).map fun n => (s.name, encode n))
  read? r := r.members?.bind StateCounts.ofMembers?

structure Dashboard where
  total : Nat
  byState : StateCounts
  /-- How many give cover. -/
  active : Nat
  activePremium : Nat
  deriving DecidableEq, Repr

def Dashboard.ofRecords (records : List Record) : Dashboard :=
  let inForce := records.filter Record.isInForce
  { total := records.length
    byState := .ofFn fun s => some (records.countP fun r => r.state = s)
    active := inForce.length
    activePremium := cappedSum (inForce.map Record.premium) }

instance : JsonForm Dashboard where
  encode d := .obj [
    ("total_policies", encode d.total),
    ("by_state", encode d.byState),
    ("active_policies", encode d.active),
    ("total_active_premium_minor", encode d.activePremium)]
  read? r := do
    let [total, byState, active, activePremium] ←
      r.fields? ["total_policies", "by_state", "active_policies", "total_active_premium_minor"]
      | none
    return {
      total := ← Json.required? total
      byState := ← Json.required? byState
      active := ← Json.required? active
      activePremium := ← Json.required? activePremium }

structure Holding where
  holder : HolderId
  active : Nat
  activePremium : Nat
  deriving DecidableEq, Repr

def Holding.ofRecords (holder : HolderId) (records : List Record) : Holding :=
  let own := records.filter fun r => r.holder = holder && r.isInForce
  { holder
    active := own.length
    activePremium := cappedSum (own.map Record.premium) }

instance : JsonForm Holding where
  encode h := .obj [
    ("holder_id", encode h.holder),
    ("active_policies", encode h.active),
    ("total_active_premium_minor", encode h.activePremium)]
  read? r := do
    let [holder, active, activePremium] ←
      r.fields? ["holder_id", "active_policies", "total_active_premium_minor"] | none
    return {
      holder := ← Json.required? holder
      active := ← Json.required? active
      activePremium := ← Json.required? activePremium }

end PolicyBook
