import PolicyBook.Audit
import PolicyBook.Proofs.Encodings
import PolicyBook.Proofs.Json.Canonical
/-!
The head of an audit trail commits to everything that was recorded.

The digest of an entry is taken over bytes that determine its number, name, payload and predecessor,
so two chains with one digest at their ends can be compared backwards, entry by entry. Either they
agree down to their beginnings, or two different byte strings with one digest turn up, or one chain
ends before the other and a byte string has the digest that stands for “nothing before”. Trimming
takes entries away but neither the head nor the count.

* **`linkBytes_injective`** — entries with the same bytes have the same content;
* **`Trail.append_eq`** — what recording an event does, and that it never fails;
* **`Trail.appendAll_eq`** — a run of records builds the chain of its events;
* **`chainDigest_eq`** — chains with one digest, compared backwards;
* **`head_commits`** — trails with one head have recorded the same events, or hashing has failed.
-/
namespace PolicyBook.Audit

def linkBytes (sequence : Nat) (event : Event.Name) (payload : Event.Payload)
    (previous : Digest) : List UInt8 :=
  (String.ofList (link sequence event payload previous).canonicalText).toUTF8.toList

def Entry.bytes (e : Entry) : List UInt8 := linkBytes e.sequence e.event e.payload e.previous

/-- Two byte strings are different and have one digest. -/
def Collide (bytes bytes' : List UInt8) : Prop := bytes ≠ bytes' ∧ sha256 bytes = sha256 bytes'

/-- Hashing has failed on these byte strings: two of them collide, or one of them has the digest
that stands for “nothing before”. -/
def HashFails (hashed : List (List UInt8)) : Prop :=
  (∃ b ∈ hashed, ∃ c ∈ hashed, Collide b c) ∨ ∃ b ∈ hashed, sha256 b = .zero

theorem HashFails.mono {hashed hashed' : List (List UInt8)} (h : HashFails hashed)
    (hsub : ∀ b ∈ hashed, b ∈ hashed') : HashFails hashed' := by
  obtain ⟨b, hb, c, hc, hbc⟩ | ⟨b, hb, hzero⟩ := h
  · exact .inl ⟨b, hsub b hb, c, hsub c hc, hbc⟩
  · exact .inr ⟨b, hsub b hb, hzero⟩

/-! ### Entries -/

section

variable (sequence : Nat) (event : Event.Name) (payload : Event.Payload) (previous : Digest)

theorem exact_link : (link sequence event payload previous).firstFloat? = none := by
  refine Json.exact_obj ?_
  simp only [List.forall_mem_cons]
  exact ⟨IsFaithful.nat.exact _, IsFaithful.eventName.exact _, Event.isFaithful_payload.exact _,
    IsFaithful.digest.exact _, fun _ h => absurd h List.not_mem_nil⟩

theorem linkDigest_eq :
    linkDigest sequence event payload previous =
      .ok (sha256 (linkBytes sequence event payload previous)) := by
  rw [linkDigest, Json.canonical_eq_ok (exact_link sequence event payload previous)]
  rfl

end

theorem linkBytes_injective {sequence sequence' : Nat} {event event' : Event.Name}
    {payload payload' : Event.Payload} {previous previous' : Digest}
    (h : linkBytes sequence event payload previous =
      linkBytes sequence' event' payload' previous') :
    sequence = sequence' ∧ event = event' ∧ payload = payload' ∧ previous = previous' := by
  have hmeaning := Json.canonicalText_injective (exact_link sequence event payload previous)
    (exact_link sequence' event' payload' previous') (Json.utf8_injective h)
  exact ⟨IsFaithful.nat.injective _ _ (Json.member_eq hmeaning "sequence" rfl rfl),
    IsFaithful.eventName.injective _ _ (Json.member_eq hmeaning "event" rfl rfl),
    Event.isFaithful_payload.injective _ _ (Json.member_eq hmeaning "payload" rfl rfl),
    IsFaithful.digest.injective _ _ (Json.member_eq hmeaning "previous" rfl rfl)⟩

theorem content_eq_or_collide {sequence sequence' : Nat} {event event' : Event.Name}
    {payload payload' : Event.Payload} {previous previous' : Digest}
    (h : sha256 (linkBytes sequence event payload previous) =
      sha256 (linkBytes sequence' event' payload' previous')) :
    (sequence = sequence' ∧ event = event' ∧ payload = payload' ∧ previous = previous') ∨
      Collide (linkBytes sequence event payload previous)
        (linkBytes sequence' event' payload' previous') := by
  by_cases hbytes : linkBytes sequence event payload previous =
      linkBytes sequence' event' payload' previous'
  · exact .inl (linkBytes_injective hbytes)
  · exact .inr ⟨hbytes, h⟩

/-! ### Chains of events -/

/-- The digest at the end of a chain of events, the newest event first. -/
def chainDigest : List Event → Digest
  | [] => .zero
  | e :: older => sha256 (linkBytes older.length e.name e.payload (chainDigest older))

/-- The byte strings that are hashed along a chain of events, the newest first. -/
def chainBytes : List Event → List (List UInt8)
  | [] => []
  | e :: older => linkBytes older.length e.name e.payload (chainDigest older) :: chainBytes older

/-- Chains with one digest at their ends are equal, or hashing has failed along them. -/
theorem chainDigest_eq {xs ys : List Event} (h : chainDigest xs = chainDigest ys) :
    xs = ys ∨ HashFails (chainBytes xs ++ chainBytes ys) := by
  -- backwards from the newest event; where one chain ends before the other, the digest of the
  -- longer one is zero
  induction xs generalizing ys with
  | nil =>
    cases ys with
    | nil => exact .inl rfl
    | cons y ys => exact .inr (.inr ⟨_, List.mem_cons_self, h.symm⟩)
  | cons x xs ih =>
    cases ys with
    | nil => exact .inr (.inr ⟨_, List.mem_cons_self, h⟩)
    | cons y ys =>
      obtain ⟨-, hname, hpayload, hprevious⟩ | hcollide := content_eq_or_collide h
      · -- the newest events agree, and so do the digests before them
        obtain rfl | hfails := ih hprevious
        · have hevent : x = y := by
            cases x
            cases y
            exact congr (congrArg Event.mk hname) hpayload
          exact .inl (by rw [hevent])
        · refine .inr (hfails.mono fun b hb => ?_)
          rw [List.mem_append] at hb ⊢
          exact hb.imp (List.mem_cons_of_mem _) (List.mem_cons_of_mem _)
      · refine .inr (.inl ⟨_, List.mem_append_left _ List.mem_cons_self, _,
          List.mem_append_right _ List.mem_cons_self, hcollide⟩)

/-! ### Trails -/

namespace Trail

/-- Record events one after another, the first of them first. -/
def appendAll (trail : Trail) : List Event → Except Double Trail
  | [] => .ok trail
  | e :: rest => do
    let (_, next) ← trail.append e
    next.appendAll rest

/-- The byte strings that are hashed while events are recorded one after another. -/
def hashed (trail : Trail) : List Event → List (List UInt8)
  | [] => []
  | e :: rest =>
    linkBytes trail.recorded e.name e.payload trail.head ::
      match trail.append e with
      | .ok (_, next) => next.hashed rest
      | .error _ => []

def entryOf (trail : Trail) (event : Event) : Entry where
  sequence := trail.recorded
  event := event.name
  payload := event.payload
  previous := trail.head
  digest := sha256 (linkBytes trail.recorded event.name event.payload trail.head)

/-- The trail with one more entry, before it is trimmed. -/
def grown (trail : Trail) (event : Event) : Trail :=
  { trail with
    entries := trail.entries ++ [trail.entryOf event]
    recorded := trail.recorded + 1
    head := (trail.entryOf event).digest }

theorem append_eq (trail : Trail) (event : Event) :
    trail.append event = .ok ((trail.entryOf event).digest, (trail.grown event).trim) := by
  rw [append, linkDigest_eq]
  rfl

@[simp] theorem trim_recorded (trail : Trail) : trail.trim.recorded = trail.recorded := by
  rw [trim]
  split <;> rfl

@[simp] theorem trim_head (trail : Trail) : trail.trim.head = trail.head := by
  rw [trim]
  split <;> rfl

/-- The trail has recorded these events, the newest first, whatever entries it retains. -/
structure HasRecorded (trail : Trail) (events : List Event) : Prop where
  recorded_eq : trail.recorded = events.length
  head_eq : trail.head = chainDigest events

theorem hasRecorded_new (limit : Nat) : (new limit).HasRecorded [] where
  recorded_eq := rfl
  head_eq := rfl

section

variable {trail : Trail} {older : List Event}

theorem HasRecorded.linkBytes_eq (h : trail.HasRecorded older) (event : Event) :
    linkBytes trail.recorded event.name event.payload trail.head =
      linkBytes older.length event.name event.payload (chainDigest older) := by
  rw [h.recorded_eq, h.head_eq]

theorem HasRecorded.append (h : trail.HasRecorded older) (event : Event) :
    (trail.grown event).trim.HasRecorded (event :: older) where
  recorded_eq := by
    rw [trim_recorded]
    exact congrArg (· + 1) h.recorded_eq
  head_eq := by
    rw [trim_head]
    exact congrArg sha256 (h.linkBytes_eq event)

theorem appendAll_eq (h : trail.HasRecorded older) (events : List Event) :
    ∃ next, trail.appendAll events = .ok next ∧ next.HasRecorded (events.reverse ++ older) := by
  induction events generalizing trail older with
  | nil => exact ⟨trail, rfl, h⟩
  | cons e rest ih =>
    obtain ⟨next, hnext, hrecorded⟩ := ih (h.append e)
    refine ⟨next, ?_, ?_⟩
    · rw [appendAll, append_eq]
      exact hnext
    · rw [List.reverse_cons, List.append_assoc]
      exact hrecorded

theorem hashed_eq (h : trail.HasRecorded older) (events : List Event) :
    (trail.hashed events).reverse ++ chainBytes older = chainBytes (events.reverse ++ older) := by
  induction events generalizing trail older with
  | nil => rfl
  | cons e rest ih =>
    -- what is hashed first lies deepest in the chain
    rw [List.reverse_cons, List.append_assoc, List.singleton_append, ← ih (h.append e), hashed,
      append_eq, List.reverse_cons, List.append_assoc, List.singleton_append, chainBytes,
      h.linkBytes_eq]

end

end Trail

/-- Trails of any capacity that end with one head have recorded the same events, unless two
different byte strings with one digest were hashed on the way, or a byte string with the digest
zero. In particular the digests of two entries agree only if their contents do or their bytes
collide. -/
theorem head_commits (limit limit' : Nat) (events events' : List Event) :
    (∃ trail trail' : Trail,
      (Trail.new limit).appendAll events = .ok trail ∧
      (Trail.new limit').appendAll events' = .ok trail' ∧
      (trail.head = trail'.head →
        events = events' ∨
          HashFails ((Trail.new limit).hashed events ++ (Trail.new limit').hashed events'))) ∧
    ∀ e f : Entry,
      e.expectedDigest = .ok (sha256 e.bytes) ∧ f.expectedDigest = .ok (sha256 f.bytes) ∧
      (e.expectedDigest = f.expectedDigest →
        (e.sequence = f.sequence ∧ e.event = f.event ∧ e.payload = f.payload ∧
          e.previous = f.previous) ∨
        Collide e.bytes f.bytes) := by
  constructor
  · have hnew := Trail.hasRecorded_new limit
    have hnew' := Trail.hasRecorded_new limit'
    obtain ⟨trail, hrun, hrecorded⟩ := Trail.appendAll_eq hnew events
    obtain ⟨trail', hrun', hrecorded'⟩ := Trail.appendAll_eq hnew' events'
    refine ⟨trail, trail', hrun, hrun', fun hhead => ?_⟩
    rw [hrecorded.head_eq, hrecorded'.head_eq] at hhead
    obtain heq | hfails := chainDigest_eq hhead
    · rw [List.append_nil, List.append_nil] at heq
      exact .inl (List.reverse_inj.1 heq)
    · rw [← Trail.hashed_eq hnew, ← Trail.hashed_eq hnew'] at hfails
      refine .inr (hfails.mono fun b hb => ?_)
      simpa [chainBytes] using hb
  · intro e f
    have he : e.expectedDigest = .ok (sha256 e.bytes) := linkDigest_eq ..
    have hf : f.expectedDigest = .ok (sha256 f.bytes) := linkDigest_eq ..
    refine ⟨he, hf, fun h => ?_⟩
    rw [he, hf] at h
    exact content_eq_or_collide (Except.ok.inj h)

end PolicyBook.Audit
