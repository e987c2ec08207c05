import PolicyBook.Proofs.AuditChain
/-!
What a bounded trail retains.

A trail that never drops an entry is the whole chain of the events that it has recorded. A bounded
trail drops its oldest entries a batch at a time, and what it retains is an end of the whole chain:
the digests, the links and the numbers in it are those of the whole chain, so it still verifies, and
its head does not depend on the capacity at all.

* **`retained_succ`** — how the number of retained entries goes on from one event to the next;
* **`Trail.Retains.append`** — recording an event, and the batch that may go, leave an end of the
  whole chain;
* **`verifyFrom_entriesFrom`** — an end of a chain verifies;
* **`Trail.appendAll_isWindow`** — all of this for every run of records, and the exact number of
  entries that are left.
-/
namespace PolicyBook.Audit

/-! ### The whole chain -/

/-- The entries of events recorded one after another, from a number and a digest on, when none of
them is ever dropped. -/
def entriesFrom (sequence : Nat) (previous : Digest) : List Event → List Entry
  | [] => []
  | e :: rest =>
    let digest := sha256 (linkBytes sequence e.name e.payload previous)
    ⟨sequence, e.name, e.payload, previous, digest⟩ :: entriesFrom (sequence + 1) digest rest

def wholeChain (events : List Event) : List Entry := entriesFrom 0 .zero events

/-- The digest of the last entry, or the given one if there is no entry. -/
def lastDigest (previous : Digest) (entries : List Entry) : Digest :=
  (entries.getLast?.map Entry.digest).getD previous

@[simp] theorem length_entriesFrom (sequence : Nat) (previous : Digest) (events : List Event) :
    (entriesFrom sequence previous events).length = events.length := by
  induction events generalizing sequence previous with
  | nil => rfl
  | cons e rest ih => rw [entriesFrom, List.length_cons, ih, List.length_cons]

theorem lastDigest_cons (previous : Digest) (e : Entry) (rest : List Entry) :
    lastDigest previous (e :: rest) = lastDigest e.digest rest := by
  rw [lastDigest, lastDigest, List.getLast?_cons]
  cases rest.getLast? <;> rfl

theorem entriesFrom_concat (sequence : Nat) (previous : Digest) (events : List Event) (e : Event) :
    entriesFrom sequence previous (events ++ [e]) =
      entriesFrom sequence previous events ++
        entriesFrom (sequence + events.length)
          (lastDigest previous (entriesFrom sequence previous events)) [e] := by
  induction events generalizing sequence previous with
  | nil => rfl
  | cons first rest ih =>
    have hlast : lastDigest previous (entriesFrom sequence previous (first :: rest)) =
        lastDigest _ (entriesFrom (sequence + 1) _ rest) := lastDigest_cons ..
    have hlength : sequence + (first :: rest).length = sequence + 1 + rest.length := by
      rw [List.length_cons]
      omega
    rw [hlast, hlength, List.cons_append, entriesFrom, ih]
    rfl

theorem lastDigest_entriesFrom (past events : List Event) :
    lastDigest (chainDigest past) (entriesFrom past.length (chainDigest past) events) =
      chainDigest (events.reverse ++ past) := by
  induction events generalizing past with
  | nil => rfl
  | cons e rest ih =>
    rw [entriesFrom, lastDigest_cons, List.reverse_cons, List.append_assoc]
    exact ih (e :: past)

theorem lastDigest_wholeChain (events : List Event) :
    lastDigest .zero (wholeChain events) = chainDigest events.reverse := by
  have := lastDigest_entriesFrom [] events
  rwa [List.append_nil] at this

theorem map_sequence_entriesFrom (sequence : Nat) (previous : Digest) (events : List Event) :
    (entriesFrom sequence previous events).map Entry.sequence =
      List.range' sequence events.length := by
  induction events generalizing sequence previous with
  | nil => rfl
  | cons e rest ih => rw [entriesFrom, List.map_cons, ih, List.length_cons, List.range'_succ]

theorem drop_entriesFrom (n sequence : Nat) (previous : Digest) (events : List Event) :
    ∃ before, (n = 0 → before = previous) ∧
      (entriesFrom sequence previous events).drop n =
        entriesFrom (sequence + n) before (events.drop n) := by
  induction n generalizing sequence previous events with
  | zero => exact ⟨previous, fun _ => rfl, rfl⟩
  | succ n ih =>
    cases events with
    | nil => exact ⟨previous, fun h => absurd h (Nat.succ_ne_zero n), rfl⟩
    | cons e rest =>
      obtain ⟨before, -, hdrop⟩ := ih (sequence + 1)
        (sha256 (linkBytes sequence e.name e.payload previous)) rest
      refine ⟨before, fun h => absurd h (Nat.succ_ne_zero n), ?_⟩
      rw [entriesFrom, List.drop_succ_cons, List.drop_succ_cons, hdrop, Nat.add_right_comm,
        Nat.add_assoc]

namespace Trail

/-- A chain verifies behind the digest that it goes on from. At the beginning of what is checked it
verifies behind anything, unless it begins with the first event: that one has nothing before it. -/
theorem verifyFrom_entriesFrom {before : Option Digest} {sequence : Nat} {previous : Digest}
    (h : before = some previous ∨ before = none ∧ (sequence = 0 → previous = .zero))
    (events : List Event) : verifyFrom before (entriesFrom sequence previous events) = .ok () := by
  induction events generalizing before sequence previous with
  | nil => rfl
  | cons e rest ih =>
    rw [entriesFrom, verifyFrom, if_pos, Entry.expectedDigest, linkDigest_eq]
    · -- every later entry is checked behind the one before it
      show (if _ then _ else _) = _
      rw [if_pos rfl]
      exact ih (.inl rfl)
    · rcases h with rfl | ⟨rfl, hfirst⟩
      · simp [linked]
      · by_cases hsequence : sequence = 0
        · simp [linked, hfirst hsequence]
        · simp [linked, hsequence]

end Trail

/-! ### How much is retained -/

/-- How many entries a trail of a capacity retains of so many that it has recorded. -/
def retained (capacity n : Nat) : Nat :=
  if n ≤ capacity then n
  else
    let batch := max (capacity / 10) 1
    capacity + 1 - batch + (n - capacity - 1) % batch

section

variable {capacity : Nat}

theorem retained_of_lt {n : Nat} (h : capacity < n) :
    ∃ r < max (capacity / 10) 1, r = (n - capacity - 1) % max (capacity / 10) 1 ∧
      retained capacity n = capacity + 1 - max (capacity / 10) 1 + r :=
  ⟨_, Nat.mod_lt _ (by omega), rfl, if_neg (by omega)⟩

theorem retained_le (h : 1 ≤ capacity) (n : Nat) : retained capacity n ≤ capacity := by
  rcases Nat.lt_or_ge capacity n with hlt | hge
  · obtain ⟨r, hr, -, heq⟩ := retained_of_lt hlt
    omega
  · rw [retained, if_pos hge]
    exact hge

theorem retained_le_self (h : 1 ≤ capacity) (n : Nat) : retained capacity n ≤ n := by
  rcases Nat.lt_or_ge capacity n with hlt | hge
  · exact Nat.le_trans (retained_le h n) (Nat.le_of_lt hlt)
  · exact Nat.le_of_eq (if_pos hge)

theorem retained_pos (h : 1 ≤ capacity) {n : Nat} (hn : 1 ≤ n) : 1 ≤ retained capacity n := by
  rcases Nat.lt_or_ge capacity n with hlt | hge
  · obtain ⟨r, -, -, heq⟩ := retained_of_lt hlt
    omega
  · rw [retained, if_pos hge]
    exact hn

/-- One more entry is retained, and a batch goes when that would be more than the capacity. -/
theorem retained_succ (h : 1 ≤ capacity) (n : Nat) :
    retained capacity (n + 1) =
      if capacity < retained capacity n + 1 then
        retained capacity n + 1 - max (capacity / 10) 1
      else retained capacity n + 1 := by
  rcases Nat.lt_or_ge capacity n with hlt | hge
  · obtain ⟨r, hr, hmod, heq⟩ := retained_of_lt hlt
    obtain ⟨r', -, hmod', heq'⟩ := retained_of_lt (show capacity < n + 1 by omega)
    -- the remainders go up one by one and start anew behind the last one
    have hnext : r' = (r + 1) % max (capacity / 10) 1 := by
      rw [hmod', show n + 1 - capacity - 1 = n - capacity - 1 + 1 by omega, Nat.add_mod, ← hmod,
        Nat.add_mod_mod]
    by_cases hlast : r + 1 = max (capacity / 10) 1
    · rw [hlast, Nat.mod_self] at hnext
      rw [heq', if_pos (by omega)]
      omega
    · rw [Nat.mod_eq_of_lt (by omega)] at hnext
      rw [heq', if_neg (by omega)]
      omega
  · have hself : retained capacity n = n := if_pos hge
    rw [hself]
    rcases Nat.lt_or_ge n capacity with hbelow | hfull
    · rw [retained, if_pos (show n + 1 ≤ capacity from hbelow), if_neg (by omega)]
    · obtain ⟨r, -, hmod, heq⟩ := retained_of_lt (show capacity < n + 1 by omega)
      rw [show n + 1 - capacity - 1 = 0 by omega, Nat.zero_mod] at hmod
      rw [heq, hmod, if_pos (by omega)]
      omega

end

/-! ### Trails -/

namespace Trail

@[simp] theorem trim_capacity (trail : Trail) : trail.trim.capacity = trail.capacity := by
  rw [trim]
  split <;> rfl

theorem trim_entries (trail : Trail) :
    trail.trim.entries =
      if trail.capacity < trail.entries.length then trail.entries.drop trail.batch
      else trail.entries := by
  rw [trim]
  split <;> rfl

/-- The trail has recorded these events, the oldest first, and retains what it should of them. -/
structure Retains (trail : Trail) (past : List Event) : Prop where
  hasRecorded : trail.HasRecorded past.reverse
  entries_eq : trail.entries =
    (wholeChain past).drop (past.length - retained trail.capacity past.length)

theorem retains_new (limit : Nat) : (new limit).Retains [] where
  hasRecorded := hasRecorded_new limit
  entries_eq := rfl

section

variable {trail : Trail} {past : List Event}

theorem Retains.length_entries (h : trail.Retains past) :
    trail.entries.length = retained trail.capacity past.length := by
  have hle := retained_le_self trail.capacity_pos past.length
  rw [h.entries_eq, List.length_drop, wholeChain, length_entriesFrom]
  omega

theorem Retains.wholeChain_concat (h : trail.Retains past) (event : Event) :
    wholeChain (past ++ [event]) = wholeChain past ++ [trail.entryOf event] := by
  have hrecorded : trail.recorded = past.length := by
    rw [h.hasRecorded.recorded_eq, List.length_reverse]
  rw [wholeChain, entriesFrom_concat, ← wholeChain, lastDigest_wholeChain, ← h.hasRecorded.head_eq,
    Nat.zero_add, ← hrecorded]
  rfl

/-- Recording an event leaves an end of the whole chain, whether a batch goes or not. -/
theorem Retains.append (h : trail.Retains past) (event : Event) :
    (trail.grown event).trim.Retains (past ++ [event]) where
  hasRecorded := by
    rw [List.reverse_concat]
    exact h.hasRecorded.append event
  entries_eq := by
    have hpos := trail.capacity_pos
    have hle := retained_le_self hpos past.length
    -- before the trail is trimmed it retains what it had retained, and the new entry
    have hgrown : (trail.grown event).entries = (wholeChain (past ++ [event])).drop
        (past.length - retained trail.capacity past.length) := by
      show trail.entries ++ [trail.entryOf event] = _
      rw [h.wholeChain_concat, List.drop_append_of_le_length, ← h.entries_eq]
      rw [wholeChain, length_entriesFrom]
      exact Nat.sub_le _ _
    have hlength : (trail.grown event).entries.length =
        retained trail.capacity past.length + 1 := by
      show (trail.entries ++ [trail.entryOf event]).length = _
      rw [List.length_append, h.length_entries, List.length_singleton]
    rw [trim_entries, trim_capacity, hlength, hgrown, List.length_append, List.length_singleton]
    show (if trail.capacity < _ then List.drop (max (trail.capacity / 10) 1) _ else _) =
      (wholeChain (past ++ [event])).drop
        (past.length + 1 - retained trail.capacity (past.length + 1))
    rw [retained_succ hpos]
    split
    · rw [List.drop_drop]
      congr 1
      omega
    · congr 1
      omega

theorem Retains.appendAll (h : trail.Retains past) (events : List Event) :
    ∃ next, trail.appendAll events = .ok next ∧ next.capacity = trail.capacity ∧
      next.Retains (past ++ events) := by
  induction events generalizing trail past with
  | nil => exact ⟨trail, rfl, rfl, by rwa [List.append_nil]⟩
  | cons e rest ih =>
    obtain ⟨next, hnext, hcapacity, hretains⟩ := ih (h.append e)
    refine ⟨next, ?_, ?_, ?_⟩
    · rw [Trail.appendAll, append_eq]
      exact hnext
    · rw [hcapacity, trim_capacity]
      rfl
    · rwa [List.append_assoc] at hretains

end

/-- A trail that was asked to retain so many entries, beside the whole chain of the events that it
has recorded. -/
structure IsWindow (trail : Trail) (limit : Nat) (events : List Event) : Prop where
  /-- The retained entries are the last ones of the whole chain. -/
  entries_eq : trail.entries =
    (wholeChain events).drop (events.length - retained (max limit 1) events.length)
  /-- There are exactly so many of them. -/
  length_eq : trail.entries.length = retained (max limit 1) events.length
  /-- That is never more than the capacity. -/
  length_le : trail.entries.length ≤ max limit 1
  /-- Once something was recorded, something is retained. -/
  length_pos : 1 ≤ events.length → 1 ≤ trail.entries.length
  /-- The numbers run without a gap up to that of the last event. -/
  sequences : trail.entries.map Entry.sequence =
    List.range' (events.length - trail.entries.length) trail.entries.length
  /-- The head is the digest of the last entry of the whole chain, or zero. -/
  head_eq : trail.head = lastDigest .zero (wholeChain events)
  verify_eq : trail.verify = .ok ()

theorem Retains.isWindow {trail : Trail} {events : List Event} {limit : Nat}
    (h : trail.Retains events) (hcapacity : trail.capacity = max limit 1) :
    trail.IsWindow limit events := by
  have hlength := h.length_entries
  have hentries := h.entries_eq
  rw [hcapacity] at hlength hentries
  have hpos : 1 ≤ max limit 1 := Nat.le_max_right _ _
  have hle := retained_le_self hpos events.length
  obtain ⟨before, hbefore, hend⟩ := drop_entriesFrom
    (events.length - retained (max limit 1) events.length) 0 .zero events
  rw [← wholeChain, ← hentries, Nat.zero_add] at hend
  constructor
  case entries_eq => exact hentries
  case length_eq => exact hlength
  case length_le =>
    rw [hlength]
    exact retained_le hpos _
  case length_pos =>
    intro hn
    rw [hlength]
    exact retained_pos hpos hn
  case sequences =>
    rw [hlength, hend, map_sequence_entriesFrom, List.length_drop]
    congr 1
    omega
  case head_eq => rw [h.hasRecorded.head_eq, lastDigest_wholeChain]
  case verify_eq =>
    rw [verify, hend]
    exact verifyFrom_entriesFrom (.inr ⟨rfl, hbefore⟩) _

/-- Whatever capacity a trail was asked for and whatever it records, recording never fails, and the
trail is a window on the end of the whole chain. The whole chain is what a trail records that has
room for every event. -/
theorem appendAll_isWindow (limit : Nat) (events : List Event) :
    (∃ trail, (new limit).appendAll events = .ok trail ∧ trail.IsWindow limit events) ∧
    ∀ room, ∃ full, (new (events.length + room)).appendAll events = .ok full ∧
      full.entries = wholeChain events := by
  have hwindow (limit : Nat) :
      ∃ trail, (new limit).appendAll events = .ok trail ∧ trail.IsWindow limit events := by
    obtain ⟨trail, hrun, hcapacity, hretains⟩ := (retains_new limit).appendAll events
    exact ⟨trail, hrun, hretains.isWindow hcapacity⟩
  refine ⟨hwindow limit, fun room => ?_⟩
  obtain ⟨full, hrun, hfull⟩ := hwindow (events.length + room)
  refine ⟨full, hrun, ?_⟩
  have hall : retained (max (events.length + room) 1) events.length = events.length :=
    if_pos (by omega)
  rw [hfull.entries_eq, hall, Nat.sub_self, List.drop_zero]

end Trail

end PolicyBook.Audit
