import PolicyBook.Event
import PolicyBook.Json.Canonical
import PolicyBook.Text.Duration
/-!
Delivering events to listeners.

A listener is a function on whatever state the listeners of a dispatcher share. Listeners are
registered under names of events and called in the order of registration. A listener that fails, and
one that takes too long, is warned of; neither the publisher nor another listener sees it.
-/
namespace PolicyBook.Dispatch

inductive Trouble where
  | failed (text : String)
  /-- Something has no canonical form, for this number in it. -/
  | uncanonical (x : Double)
  deriving DecidableEq, Repr

def Trouble.message : Trouble → String
  | failed text => "listener failed: " ++ text
  | uncanonical x => "canonicalization failed: " ++ Json.floatMessage x

inductive Outcome where
  | done
  | failed (trouble : Trouble)
  /-- The listener broke off, perhaps with a message. -/
  | brokeOff (message : Option String)
  deriving DecidableEq, Repr

structure Listener (σ : Type) where
  name : String
  handle : Event → σ → Outcome × σ

/-! ### Warnings -/

inductive Report where
  | failed (trouble : Trouble)
  | brokeOff (message : Option String)
  /-- The call took longer than calls should, both times in milliseconds, as words of 64 bits. -/
  | slow (elapsed threshold : Nat)
  deriving DecidableEq, Repr

/-- The message of one who broke off without one. -/
def silentMessage : String := "non-string panic payload"

namespace Report

def message : Report → String
  | failed _ => "listener failed"
  | brokeOff _ => "listener panicked"
  | slow .. => "slow listener"

def isSlow : Report → Bool
  | slow .. => true
  | failed _ | brokeOff _ => false

def details : Report → List (String × Json)
  | failed trouble => [("error", .str trouble.message)]
  | brokeOff message => [("panic", .str (message.getD silentMessage))]
  | slow elapsed threshold => [("elapsed_ms", .nat elapsed), ("threshold_ms", .nat threshold)]

end Report

structure Warning where
  event : Event.Name
  listener : String
  report : Report
  deriving DecidableEq, Repr

def Warning.fields (w : Warning) : List (String × Json) :=
  [("event", encode w.event), ("listener", .str w.listener), ("message", .str w.report.message)] ++
    w.report.details

/-- The report of a call that did not end well. -/
def Outcome.report? : Outcome → Option Report
  | done => none
  | failed trouble => some (.failed trouble)
  | brokeOff message => some (.brokeOff message)

def nanosPerMilli : Nat := 1000000

/-- The report of a call that took longer than calls should. -/
def slowness? (slowMillis elapsed : Nat) : Option Report :=
  if nanosPerMilli * slowMillis < elapsed then
    some (.slow (elapsed / nanosPerMilli % twoTo 64) slowMillis)
  else none

/-- The warnings about one call: first of how it ended, then of how long it took. -/
def warnings (slowMillis : Nat) (event : Event.Name) (listener : String) (outcome : Outcome)
    (elapsed : Nat) : List Warning :=
  (outcome.report?.toList ++ (slowness? slowMillis elapsed).toList).map fun report =>
    ⟨event, listener, report⟩

/-- The times of calls that take no time. -/
def atOnce : Nat → Nat := fun _ => 0

/-! ### Dispatchers -/

/-- Listeners with the names of the events that they hear of, in the order of registration. -/
structure Dispatcher (σ : Type) where
  registrations : List (Event.Name × Listener σ)
  /-- A listener that takes longer than this many milliseconds is slow. -/
  slowMillis : Nat

namespace Dispatcher

variable {σ : Type}

def empty (slowMillis : Nat) : Dispatcher σ := ⟨[], slowMillis⟩

def subscribe (d : Dispatcher σ) (name : Event.Name) (l : Listener σ) : Dispatcher σ :=
  { d with registrations := d.registrations ++ [(name, l)] }

def subscribeAll (d : Dispatcher σ) (names : List Event.Name) (l : Listener σ) : Dispatcher σ :=
  names.foldl (fun d name => d.subscribe name l) d

/-- The listeners that hear of a name, in the order of delivery. -/
def listeners (d : Dispatcher σ) (name : Event.Name) : List (Listener σ) :=
  (d.registrations.filter fun r => r.1 = name).map Prod.snd

def listenerNames (d : Dispatcher σ) (name : Event.Name) : List String :=
  (d.listeners name).map Listener.name

def count (d : Dispatcher σ) (name : Event.Name) : Nat := (d.listeners name).length

/-- The names of which somebody hears. -/
def names (d : Dispatcher σ) : List Event.Name :=
  Event.Name.all.filter fun name => 0 < d.count name

/-- Call listeners one after the other, each on the state that the one before left. The call at a
place takes `elapsed` nanoseconds; nobody is interrupted, and the time counts when the call is
over. -/
def deliver (slowMillis : Nat) (event : Event) :
    (elapsed : Nat → Nat) → List (Listener σ) → σ → List Warning × σ
  | _, [], s => ([], s)
  | elapsed, l :: rest, s =>
    let (outcome, s) := l.handle event s
    let (behind, s) := deliver slowMillis event (fun place => elapsed (place + 1)) rest s
    (warnings slowMillis event.name l.name outcome (elapsed 0) ++ behind, s)

def publish (d : Dispatcher σ) (event : Event) (elapsed : Nat → Nat) (s : σ) : List Warning × σ :=
  deliver d.slowMillis event elapsed (d.listeners event.name) s

def description (d : Dispatcher σ) : String :=
  let counts := d.names.map fun name => s!"({Text.quoted name.text}, {d.count name})"
  "EventDispatcher \x7b listeners: [" ++ ", ".intercalate counts ++
    s!"], slow_threshold: {Text.duration d.slowMillis} \x7d"

end Dispatcher

end PolicyBook.Dispatch
