import PolicyBook.Event
import PolicyBook.Json.Canonical
/-!
The audit trail: a bounded chain of recorded events.

Every entry carries the digest of the entry before it and a digest over its own number, name,
payload and predecessor, taken over their canonical text. A change to any of these, or to the order
of entries, breaks the chain, and `Audit.Trail.verify` finds the first break.

A trail retains a limited number of entries. When it grows beyond its capacity the oldest tenth
goes; numbers and digests go on as if nothing had gone.
-/
namespace PolicyBook.Audit

structure Entry where
  /-- How many events were recorded before. -/
  sequence : Nat
  event : Event.Name
  payload : Event.Payload
  /-- The digest of the entry before, or zero. -/
  previous : Digest
  digest : Digest
  deriving DecidableEq

instance : JsonForm Entry where
  encode e := .obj [
    ("sequence", encode e.sequence),
    ("event", encode e.event),
    ("payload", encode e.payload),
    ("previous", encode e.previous),
    ("digest", encode e.digest)]
  read? r := do
    let [sequence, event, payload, previous, digest] ←
      r.fields? ["sequence", "event", "payload", "previous", "digest"] | none
    return {
      sequence := ← Json.required? sequence
      event := ← Json.required? event
      payload := ← Json.required? payload
      previous := ← Json.required? previous
      digest := ← Json.required? digest }

/-- What the digest of an entry is taken over. -/
def link (sequence : Nat) (event : Event.Name) (payload : Event.Payload) (previous : Digest) :
    Json :=
  .obj [
    ("sequence", encode sequence),
    ("event", encode event),
    ("payload", encode payload),
    ("previous", encode previous)]

/-- The digest of an entry, or the floating-point number that stands in its way. -/
def linkDigest (sequence : Nat) (event : Event.Name) (payload : Event.Payload)
    (previous : Digest) : Except Double Digest :=
  (link sequence event payload previous).canonical.map Json.digestOf

def Entry.expectedDigest (e : Entry) : Except Double Digest :=
  linkDigest e.sequence e.event e.payload e.previous

inductive Break where
  /-- The entry does not name its predecessor. -/
  | unlinked (sequence : Nat)
  /-- The digest of the entry does not fit its content. -/
  | altered (sequence : Nat)
  /-- The entry has no digest, for a number in it. -/
  | uncanonical (x : Double)
  deriving DecidableEq, Repr

def Break.message : Break → String
  | unlinked sequence => s!"audit entry {sequence} is not linked to its predecessor"
  | altered sequence => s!"audit entry {sequence} digest mismatch"
  | uncanonical x => "audit entry canonicalization failed: " ++ Json.floatMessage x

structure Trail where
  /-- The retained entries, oldest first. -/
  entries : List Entry
  /-- How many entries are retained at most. -/
  capacity : Nat
  /-- How many events were recorded. -/
  recorded : Nat
  /-- The digest of the last recorded entry, or zero. -/
  head : Digest
  capacity_pos : 1 ≤ capacity
  deriving DecidableEq

namespace Trail

/-- A trail without entries that retains as many as asked for, and at least one. -/
def new (requested : Nat) : Trail := ⟨[], max requested 1, 0, .zero, Nat.le_max_right _ _⟩

/-- How many entries go at a time. -/
def batch (trail : Trail) : Nat := max (trail.capacity / 10) 1

def trim (trail : Trail) : Trail :=
  if trail.capacity < trail.entries.length then
    { trail with entries := trail.entries.drop trail.batch }
  else trail

/-- Record an event; the answer is the digest of its entry. -/
def append (trail : Trail) (event : Event) : Except Double (Digest × Trail) := do
  let digest ← linkDigest trail.recorded event.name event.payload trail.head
  let entry : Entry := ⟨trail.recorded, event.name, event.payload, trail.head, digest⟩
  let grown : Trail := { trail with
    entries := trail.entries ++ [entry]
    recorded := trail.recorded + 1
    head := digest }
  return (digest, grown.trim)

/-- The predecessor that an entry must name: the entry before it, and zero for the first event. An
entry that begins what is retained is otherwise free. -/
def linked (before : Option Digest) (e : Entry) : Bool :=
  match before with
  | some digest => e.previous = digest
  | none => e.sequence ≠ 0 || e.previous = .zero

def verifyFrom (before : Option Digest) : List Entry → Except Break Unit
  | [] => .ok ()
  | e :: rest =>
    if linked before e then
      match e.expectedDigest with
      | .error x => .error (.uncanonical x)
      | .ok digest =>
        if digest = e.digest then verifyFrom (some e.digest) rest else .error (.altered e.sequence)
    else .error (.unlinked e.sequence)

def verify (trail : Trail) : Except Break Unit := verifyFrom none trail.entries

def isChain (trail : Trail) : Bool :=
  match trail.verify with
  | .ok () => true
  | .error _ => false

def ofPolicy (trail : Trail) (policy : PolicyId) : List Entry :=
  trail.entries.filter fun e => e.payload.policyId? = some policy

def ofName (trail : Trail) (name : Event.Name) : List Entry :=
  trail.entries.filter fun e => e.event = name

def description (trail : Trail) : String :=
  s!"AuditTrail \x7b entries: {trail.entries.length}, max_entries: {trail.capacity}, " ++
    s!"head: {Text.quoted trail.head.hex} \x7d"

end Trail

end PolicyBook.Audit
