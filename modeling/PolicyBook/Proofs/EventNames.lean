import PolicyBook.Proofs.TrailOrder
/-!
The names under which events are heard of and filed.

Listeners hear of an event, and the audit trail files it, under the name that the event states. An
event that is made from a payload states the name of the payload. One that is read from a document
states whatever the document states, and nothing compares the two.

* **`Event.isApt_iff_heard`**, **`Event.isApt_iff_filed`** — an event is heard of and filed under
  the name of its payload exactly if it states that name;
* **`Event.Source.isCandid_iff_handled`** — and this it does exactly if it comes from a payload or
  from a document that states that name;
* **`Run.filed_aptly`** — as every event does that a call publishes;
* **`Event.settled_as_approved`** — a document that states the name of another payload.
-/
namespace PolicyBook

open Audit Dispatch

/-- The last entry of a trail is that of the event that was recorded last, whether older ones go or
not. -/
theorem Audit.Trail.getLast?_trim_grown (trail : Trail) (e : Event) :
    (trail.grown e).trim.entries.getLast? = some (trail.entryOf e) := by
  have hlast : (trail.grown e).entries.getLast? = some (trail.entryOf e) := List.getLast?_concat ..
  rw [trim_entries]
  split
  · next hlong =>
    have hpos := (trail.grown e).capacity_pos
    have hbatch : (trail.grown e).batch = max ((trail.grown e).capacity / 10) 1 := rfl
    rw [List.getLast?_drop, if_neg (by omega), hlast]
  · exact hlast

namespace Event

def IsApt (e : Event) : Prop := e.name = e.payload.name

/-! ### Heard of and filed -/

/-- Whoever is registered under the name of the payload is called for the event, and nobody else
is. -/
def IsHeardAptly (e : Event) : Prop :=
  ∀ (σ : Type) (d : Dispatcher σ) (elapsed : Nat → Nat) (s : σ),
    d.publish e elapsed s =
      Dispatcher.deliver d.slowMillis e elapsed (d.listeners e.payload.name) s

/-- Whatever was recorded before, the event is filed as the last entry, with its payload and under
the name of the payload. -/
def IsFiledAptly (e : Event) : Prop :=
  ∀ trail : Trail, ∃ digest next, trail.append e = .ok (digest, next) ∧
    ∃ entry, next.entries.getLast? = some entry ∧ entry.payload = e.payload ∧
      entry.event = entry.payload.name

variable {e : Event}

theorem isApt_iff_heard : e.IsApt ↔ e.IsHeardAptly := by
  constructor
  · intro h σ d elapsed s
    rw [Dispatcher.publish, h]
  · intro h
    by_cases hname : e.name = e.payload.name
    · exact hname
    · -- who is registered under the name that is stated is called, but hears of no other name
      let counter : Listener Nat := ⟨"counter", fun _ n => (.done, n + 1)⟩
      let d : Dispatcher Nat := (Dispatcher.empty 0).subscribe e.name counter
      have hcounted : (d.publish e atOnce 0).2 = 1 := by
        simp [d, counter, Dispatcher.publish, Dispatcher.listeners, Dispatcher.subscribe,
          Dispatcher.empty, Dispatcher.deliver]
      have hnobody : d.listeners e.payload.name = [] := by
        simp [d, Dispatcher.listeners, Dispatcher.subscribe, Dispatcher.empty, hname]
      rw [h Nat d atOnce 0, hnobody] at hcounted
      exact absurd hcounted Nat.zero_ne_one

theorem isApt_iff_filed : e.IsApt ↔ e.IsFiledAptly := by
  constructor
  · intro h trail
    exact ⟨_, _, trail.append_eq e, _, trail.getLast?_trim_grown e, rfl, h⟩
  · intro h
    obtain ⟨digest, next, hnext, entry, hentry, -, hname⟩ := h (.new 1)
    rw [Trail.append_eq] at hnext
    obtain ⟨-, rfl⟩ := Prod.mk.inj (Except.ok.inj hnext)
    rw [Trail.getLast?_trim_grown] at hentry
    obtain rfl := Option.some_inj.1 hentry
    exact hname

/-! ### Sources -/

inductive Source where
  | payload (p : Payload)
  | document (r : Json.Raw)

namespace Source

def event? : Source → Option Event
  | payload p => some (.of p)
  | document r => read? r

/-- A document states the name of the payload that it holds; a payload has nothing to state. -/
def IsCandid : Source → Prop
  | payload _ => True
  | document r => ∀ name payload : Json.Raw,
      r.fields? ["name", "payload"] = some [some name, some payload] →
        read? name = (read? payload).map Payload.name

end Source

theorem fields_of_read? {r : Json.Raw} (h : read? r = some e) :
    ∃ name payload : Json.Raw, r.fields? ["name", "payload"] = some [some name, some payload] ∧
      read? name = some e.name ∧ read? payload = some e.payload := by
  obtain ⟨fields, hfields, h⟩ := Option.bind_eq_some_iff.1 h
  split at h
  · next name payload =>
    obtain ⟨n, hname, h⟩ := Option.bind_eq_some_iff.1 h
    obtain ⟨p, hpayload, h⟩ := Option.bind_eq_some_iff.1 h
    obtain rfl := Option.some_inj.1 h
    obtain ⟨rname, rfl, hn⟩ := Option.bind_eq_some_iff.1 hname
    obtain ⟨rpayload, rfl, hp⟩ := Option.bind_eq_some_iff.1 hpayload
    exact ⟨rname, rpayload, hfields, hn, hp⟩
  · exact absurd h (by simp)

theorem Source.isCandid_iff {a : Source} (h : a.event? = some e) : a.IsCandid ↔ e.IsApt := by
  cases a with
  | payload p =>
    obtain rfl := Option.some_inj.1 h
    exact ⟨fun _ => rfl, fun _ => trivial⟩
  | document r =>
    obtain ⟨name, payload, hfields, hname, hpayload⟩ := fields_of_read? h
    constructor
    · intro hcandid
      have hsame := hcandid name payload hfields
      rw [hname, hpayload] at hsame
      exact Option.some_inj.1 hsame
    · intro hapt name' payload' hfields'
      rw [hfields] at hfields'
      obtain ⟨rfl, rfl⟩ : name = name' ∧ payload = payload' := by simpa using hfields'
      rw [hname, hpayload]
      exact congrArg some hapt

/-- An event is heard of and filed under the name of its payload exactly if its source is a payload
or a document that states that name. -/
theorem Source.isCandid_iff_handled (a : Source) (e : Event) (h : a.event? = some e) :
    (a.IsCandid ↔ e.name = e.payload.name) ∧ (a.IsCandid ↔ e.IsHeardAptly) ∧
      (a.IsCandid ↔ e.IsFiledAptly) :=
  have hcandid := isCandid_iff h
  ⟨hcandid, hcandid.trans isApt_iff_heard, hcandid.trans isApt_iff_filed⟩

/-- A document that holds a settled claim and states a name. -/
def settledUnder (name : String) : Json.Raw :=
  .value (.obj [
    ("name", .str name),
    ("payload", .obj [("claim", .obj [
      ("kind", .str "settled"),
      ("claim_id", .str "claim-1"),
      ("user_id", .str "user-1"),
      ("amount_minor", .int 500)])])])

theorem settled_handled :
    let e : Event := .of (.claim ⟨⟨"claim-1"⟩, ⟨"user-1"⟩, .settled 500⟩)
    let a : Source := .document (settledUnder "claim.settled")
    a.event? = some e ∧ a.IsCandid ∧ e.IsHeardAptly ∧ e.IsFiledAptly := by
  intro e a
  have hread : a.event? = some e := by rfl
  obtain ⟨hname, hheard, hfiled⟩ := a.isCandid_iff_handled e hread
  have hcandid : a.IsCandid := hname.2 rfl
  exact ⟨hread, hcandid, hheard.1 hcandid, hfiled.1 hcandid⟩

/-- A settled claim is read as an event under the name of an approved one. -/
theorem settled_as_approved :
    ¬ ∀ (a : Source) (e : Event), a.event? = some e → e.name = e.payload.name := by
  intro h
  have hread : (Source.document (settledUnder "claim.approved")).event? =
      some ⟨.claimApproved, .claim ⟨⟨"claim-1"⟩, ⟨"user-1"⟩, .settled 500⟩⟩ := by rfl
  exact absurd (h _ _ hread) (by decide)

end Event

/-! ### What calls publish -/

theorem Operation.isApt_of_publishes {op : Operation} {e : Event} (h : op.publishes? = some e) :
    e.IsApt := by
  unfold publishes? at h
  split at h
  · obtain rfl := Option.some_inj.1 h
    rfl
  · obtain rfl := Option.some_inj.1 h
    rfl
  · exact absurd h (by simp)

namespace Run

variable {σ τ : Type}

theorem isApt_of_published {run : Run σ} (hstart : ∀ e ∈ run.start.published, e.IsApt) {t : Nat}
    {e : Event} (h : e ∈ (run.book t).published) : e.IsApt := by
  rcases mem_published.1 h with hold | ⟨u, -, hpublishes⟩
  · exact hstart e hold
  · exact Operation.isApt_of_publishes hpublishes

/-- At every moment of every run the trail files everything under the name of its payload, if what
was published before the run was published so. -/
theorem filed_aptly {run : Run (Desk τ)} {table : Table} {config : Config}
    {before after : List (Event.Name × Bystander τ)} {limit : Nat}
    (hoffice : run.office = .wired table config before after)
    (hheard : run.start.desk.HasHeard limit run.start.published)
    (hstart : ∀ e ∈ run.start.published, e.IsApt) (t : Nat) :
    ∀ entry ∈ (run.book t).desk.trail.entries, entry.event = entry.payload.name := by
  intro entry hentry
  have htold : entry.told ∈ (run.book t).desk.trail.entries.map Entry.told :=
    List.mem_map_of_mem hentry
  rw [(hasHeard hoffice hheard t).retains.told_eq] at htold
  exact isApt_of_published hstart (List.mem_of_mem_drop htold)

end Run

end PolicyBook
