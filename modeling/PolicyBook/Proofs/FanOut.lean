import Mathlib.Data.List.Basic
import Mathlib.Data.List.Induction
import PolicyBook.Lifecycle.Book
/-!
How events reach their listeners.

A dispatcher is given orders: to register listeners under names, and to publish events. What an
order to publish does is told by the registrations that were ordered before it. The listeners under
the name of the event are called in the order of their registration, each as often as it was
registered, and each finds the state that the one before has left; how the calls end, and how long
they take, makes no difference to anything but the warnings.

Who is called shows in the notes of listeners that write down their calls (`Listener.noted`); that
failures have no effect shows in a comparison with listeners that never fail (`Listener.calm`).

* **`Exchange.listeners_after`** — who hears of a name after any orders;
* **`Dispatcher.deliver_eq`** — what a delivery comes to: warnings by place, and one effect after
  the other;
* **`warningsOf_failed`**, **`warningsOf_slow`** — one warning for each call that did not end well,
  and one for each that took too long;
* **`Exchange.after_noted`** — the calls that are made in the course of any orders;
* **`Exchange.isFanOut`** — all of this together.
-/
namespace PolicyBook.Dispatch

variable {σ : Type}

/-! ### Orders -/

inductive Order (σ : Type) where
  | subscribe (name : Event.Name) (l : Listener σ)
  | subscribeAll (names : List Event.Name) (l : Listener σ)
  /-- Publish an event; the call at a place takes so many nanoseconds. -/
  | publish (event : Event) (elapsed : Nat → Nat)

structure Exchange (σ : Type) where
  dispatcher : Dispatcher σ
  state : σ
  warnings : List Warning

namespace Exchange

def new (slowMillis : Nat) (s : σ) : Exchange σ := ⟨.empty slowMillis, s, []⟩

def obey (x : Exchange σ) : Order σ → Exchange σ
  | .subscribe name l => { x with dispatcher := x.dispatcher.subscribe name l }
  | .subscribeAll names l => { x with dispatcher := x.dispatcher.subscribeAll names l }
  | .publish event elapsed =>
    let (warnings, state) := x.dispatcher.publish event elapsed x.state
    { x with state, warnings := x.warnings ++ warnings }

def after (x : Exchange σ) (orders : List (Order σ)) : Exchange σ := orders.foldl obey x

theorem after_concat (x : Exchange σ) (orders : List (Order σ)) (order : Order σ) :
    x.after (orders ++ [order]) = (x.after orders).obey order := by
  rw [after, List.foldl_append]
  rfl

end Exchange

/-- What an order registers under a name, as often as it does. -/
def Order.registers (name : Event.Name) : Order σ → List (Listener σ)
  | subscribe other l => if other = name then [l] else []
  | subscribeAll names l => List.replicate (names.count name) l
  | publish .. => []

/-- Who hears of a name after some orders, in the order of registration. Beside each listener stands
the number of the order that registered it. -/
def hearers (name : Event.Name) (orders : List (Order σ)) : List (Nat × Listener σ) :=
  orders.zipIdx.flatMap fun order => (order.1.registers name).map fun l => (order.2, l)

theorem hearers_concat (name : Event.Name) (orders : List (Order σ)) (order : Order σ) :
    hearers name (orders ++ [order]) =
      hearers name orders ++ (order.registers name).map fun l => (orders.length, l) := by
  simp [hearers, List.zipIdx_append]

theorem map_snd_hearers (name : Event.Name) (orders : List (Order σ)) :
    (hearers name orders).map Prod.snd = orders.flatMap (Order.registers name) := by
  induction orders using List.reverseRecOn with
  | nil => rfl
  | append_singleton orders order ih =>
    rw [hearers_concat, List.map_append, ih, List.map_map, List.flatMap_append,
      List.flatMap_singleton]
    exact congrArg (_ ++ ·) (List.map_id _)

/-! ### Registrations -/

namespace Dispatcher

theorem listeners_subscribe (d : Dispatcher σ) (other name : Event.Name) (l : Listener σ) :
    (d.subscribe other l).listeners name =
      d.listeners name ++ (Order.subscribe other l).registers name := by
  by_cases h : other = name <;> simp [listeners, subscribe, Order.registers, h]

theorem listeners_subscribeAll (d : Dispatcher σ) (names : List Event.Name) (l : Listener σ)
    (name : Event.Name) :
    (d.subscribeAll names l).listeners name =
      d.listeners name ++ (Order.subscribeAll names l).registers name := by
  induction names generalizing d with
  | nil => exact (List.append_nil _).symm
  | cons other rest ih =>
    show ((d.subscribe other l).subscribeAll rest l).listeners name = _
    rw [ih, listeners_subscribe, List.append_assoc]
    by_cases h : other = name <;>
      simp [Order.registers, h, List.replicate_succ]

end Dispatcher

theorem Exchange.listeners_after (slowMillis : Nat) (s : σ) (orders : List (Order σ))
    (name : Event.Name) :
    ((new slowMillis s).after orders).dispatcher.listeners name =
      (hearers name orders).map Prod.snd := by
  induction orders using List.reverseRecOn with
  | nil => rfl
  | append_singleton orders order ih =>
    rw [after_concat, map_snd_hearers, List.flatMap_append, List.flatMap_singleton,
      ← map_snd_hearers, ← ih]
    cases order with
    | subscribe other l => exact Dispatcher.listeners_subscribe _ other name l
    | subscribeAll names l => exact Dispatcher.listeners_subscribeAll _ names l name
    | publish => exact (List.append_nil _).symm

/-! ### Deliveries -/

/-- What a listener makes of the state when it hears of an event, however the call ends. -/
def Listener.effect (event : Event) (s : σ) (l : Listener σ) : σ := (l.handle event s).2

/-- The state that the listener at a place finds. -/
def foundAt (event : Event) (listeners : List (Listener σ)) (s : σ) (place : Nat) : σ :=
  (listeners.take place).foldl (Listener.effect event) s

def failure? (event : Event) (l : Listener σ) (s : σ) : Option Warning :=
  match (l.handle event s).1 with
  | .done => none
  | .failed trouble => some ⟨event.name, l.name, .failed trouble⟩
  | .brokeOff message => some ⟨event.name, l.name, .brokeOff message⟩

/-- The warning of a call that takes more nanoseconds than the milliseconds that are allowed. -/
def delay? (slowMillis : Nat) (event : Event) (listener : String) (elapsed : Nat) :
    Option Warning :=
  if 1000000 * slowMillis < elapsed then
    some ⟨event.name, listener, .slow (elapsed / 1000000 % twoTo 64) slowMillis⟩
  else none

def failuresOf (event : Event) (listeners : List (Listener σ)) (s : σ) : List Warning :=
  listeners.zipIdx.filterMap fun l => failure? event l.1 (foundAt event listeners s l.2)

def delaysOf (slowMillis : Nat) (event : Event) (elapsed : Nat → Nat)
    (listeners : List (Listener σ)) : List Warning :=
  listeners.zipIdx.filterMap fun l => delay? slowMillis event l.1.name (elapsed l.2)

/-- All warnings, in the order of the calls. A call that fails and takes too long has two. -/
def warningsOf (slowMillis : Nat) (event : Event) (elapsed : Nat → Nat)
    (listeners : List (Listener σ)) (s : σ) : List Warning :=
  listeners.zipIdx.flatMap fun l =>
    (failure? event l.1 (foundAt event listeners s l.2)).toList ++
      (delay? slowMillis event l.1.name (elapsed l.2)).toList

theorem warnings_eq (slowMillis : Nat) (event : Event) (l : Listener σ) (s : σ) (elapsed : Nat) :
    warnings slowMillis event.name l.name (l.handle event s).1 elapsed =
      (failure? event l s).toList ++ (delay? slowMillis event l.name elapsed).toList := by
  have hdelay :
      (slowness? slowMillis elapsed).toList.map (fun report =>
        (⟨event.name, l.name, report⟩ : Warning)) =
      (delay? slowMillis event l.name elapsed).toList := by
    rw [slowness?, delay?, nanosPerMilli]
    split <;> rfl
  rw [warnings, List.map_append, hdelay, failure?]
  cases (l.handle event s).1 <;> rfl

theorem warningsOf_cons (slowMillis : Nat) (event : Event) (elapsed : Nat → Nat) (l : Listener σ)
    (rest : List (Listener σ)) (s : σ) :
    warningsOf slowMillis event elapsed (l :: rest) s =
      warnings slowMillis event.name l.name (l.handle event s).1 (elapsed 0) ++
        warningsOf slowMillis event (fun place => elapsed (place + 1)) rest (l.effect event s) := by
  rw [warnings_eq, warningsOf, List.zipIdx_cons, List.flatMap_cons, List.zipIdx_succ,
    List.flatMap_map]
  rfl

theorem Dispatcher.deliver_eq (slowMillis : Nat) (event : Event) (elapsed : Nat → Nat)
    (listeners : List (Listener σ)) (s : σ) :
    deliver slowMillis event elapsed listeners s =
      (warningsOf slowMillis event elapsed listeners s,
        listeners.foldl (Listener.effect event) s) := by
  induction listeners generalizing elapsed s with
  | nil => rfl
  | cons l rest ih =>
    rw [warningsOf_cons]
    show (_ ++ (deliver slowMillis event _ rest (l.effect event s)).1,
      (deliver slowMillis event _ rest (l.effect event s)).2) = _
    rw [ih]
    rfl

theorem filter_isSlow (slowMillis : Nat) (event : Event) (l : Listener σ) (s : σ) (elapsed : Nat) :
    ((failure? event l s).toList ++ (delay? slowMillis event l.name elapsed).toList).filter
        (fun w => !w.report.isSlow) = (failure? event l s).toList ∧
      ((failure? event l s).toList ++ (delay? slowMillis event l.name elapsed).toList).filter
        (fun w => w.report.isSlow) = (delay? slowMillis event l.name elapsed).toList := by
  rw [failure?, delay?]
  split <;> split <;> exact ⟨rfl, rfl⟩

/-- Apart from calls that took too long, there is one warning for each call that did not end
well. -/
theorem warningsOf_failed (slowMillis : Nat) (event : Event) (elapsed : Nat → Nat)
    (listeners : List (Listener σ)) (s : σ) :
    (warningsOf slowMillis event elapsed listeners s).filter (fun w => !w.report.isSlow) =
      failuresOf event listeners s := by
  rw [warningsOf, failuresOf, List.filter_flatMap, List.filterMap_eq_flatMap_toList]
  exact List.flatMap_congr fun l _ => (filter_isSlow slowMillis event l.1 _ _).1

theorem warningsOf_slow (slowMillis : Nat) (event : Event) (elapsed : Nat → Nat)
    (listeners : List (Listener σ)) (s : σ) :
    (warningsOf slowMillis event elapsed listeners s).filter (fun w => w.report.isSlow) =
      delaysOf slowMillis event elapsed listeners := by
  rw [warningsOf, delaysOf, List.filter_flatMap, List.filterMap_eq_flatMap_toList]
  exact List.flatMap_congr fun l _ => (filter_isSlow slowMillis event l.1 _ _).2

theorem Exchange.slowMillis_after (slowMillis : Nat) (s : σ) (orders : List (Order σ)) :
    ((new slowMillis s).after orders).dispatcher.slowMillis = slowMillis := by
  have hall (d : Dispatcher σ) (names : List Event.Name) (l : Listener σ) :
      (d.subscribeAll names l).slowMillis = d.slowMillis := by
    induction names generalizing d with
    | nil => rfl
    | cons name rest ih => exact ih (d.subscribe name l)
  induction orders using List.reverseRecOn with
  | nil => rfl
  | append_singleton orders order ih =>
    rw [after_concat]
    cases order with
    | subscribe other l => exact ih
    | subscribeAll names l => exact (hall _ names l).trans ih
    | publish => exact ih

theorem Exchange.publish_after (slowMillis : Nat) (s : σ) (orders : List (Order σ)) (event : Event)
    (elapsed : Nat → Nat) (t : σ) :
    ((new slowMillis s).after orders).dispatcher.publish event elapsed t =
      (warningsOf slowMillis event elapsed ((hearers event.name orders).map Prod.snd) t,
        ((hearers event.name orders).map Prod.snd).foldl (Listener.effect event) t) := by
  rw [Dispatcher.publish, listeners_after, slowMillis_after, Dispatcher.deliver_eq]

/-! ### Other listeners in the same places -/

/-- An order with another listener in the place of the one that it registers. -/
def Order.map {τ : Type} (f : Listener σ → Listener τ) : Order σ → Order τ
  | subscribe name l => subscribe name (f l)
  | subscribeAll names l => subscribeAll names (f l)
  | publish event elapsed => publish event elapsed

theorem Order.registers_map {τ : Type} (f : Listener σ → Listener τ) (name : Event.Name)
    (order : Order σ) : (order.map f).registers name = (order.registers name).map f := by
  cases order with
  | subscribe other l => by_cases h : other = name <;> simp [map, registers, h]
  | subscribeAll names l => simp [map, registers]
  | publish => rfl

/-! ### Listeners that never fail -/

/-- A listener with the same effects that always ends well. -/
def Listener.calm (l : Listener σ) : Listener σ where
  name := l.name
  handle event s := (.done, l.effect event s)

def Order.calm (order : Order σ) : Order σ := order.map Listener.calm

theorem map_snd_hearers_calm (name : Event.Name) (orders : List (Order σ)) :
    (hearers name (orders.map Order.calm)).map Prod.snd =
      ((hearers name orders).map Prod.snd).map Listener.calm := by
  rw [map_snd_hearers, map_snd_hearers, List.flatMap_map, List.map_flatMap]
  simp only [Order.calm, Order.registers_map]

theorem warningsOf_calm (slowMillis : Nat) (event : Event) (elapsed : Nat → Nat)
    (listeners : List (Listener σ)) (s : σ) :
    warningsOf slowMillis event elapsed (listeners.map Listener.calm) s =
      delaysOf slowMillis event elapsed listeners := by
  rw [warningsOf, delaysOf, List.filterMap_eq_flatMap_toList, List.zipIdx_map, List.flatMap_map]
  refine List.flatMap_congr fun l _ => ?_
  have hdone (found : σ) : failure? event l.1.calm found = none := rfl
  have hname : l.1.calm.name = l.1.name := rfl
  simp only [Prod.map_fst, Prod.map_snd, id_eq, hdone, hname, Option.toList_none, List.nil_append]

/-- With listeners that never fail, orders leave the same state, and of the warnings those about
calls that took too long. -/
theorem Exchange.after_calm (slowMillis : Nat) (s : σ) (orders : List (Order σ)) :
    ((new slowMillis s).after (orders.map Order.calm)).state =
      ((new slowMillis s).after orders).state ∧
    ((new slowMillis s).after (orders.map Order.calm)).warnings =
      ((new slowMillis s).after orders).warnings.filter fun w => w.report.isSlow := by
  induction orders using List.reverseRecOn with
  | nil => exact ⟨rfl, rfl⟩
  | append_singleton orders order ih =>
    rw [List.map_append, List.map_singleton, after_concat, after_concat]
    cases order with
    | subscribe other l => exact ih
    | subscribeAll names l => exact ih
    | publish event elapsed =>
      simp only [Order.calm, Order.map, obey, publish_after, map_snd_hearers_calm, warningsOf_calm,
        ih.1, ih.2, List.filter_append, warningsOf_slow, and_true]
      rw [List.foldl_map]
      rfl

/-! ### Listeners that note their calls -/

/-- A listener that writes down its calls under a number, beside what it does. -/
def Listener.noted (number : Nat) (l : Listener σ) : Listener (σ × List (Nat × Event)) where
  name := l.name
  handle event s :=
    let (outcome, next) := l.handle event s.1
    (outcome, next, s.2 ++ [(number, event)])

def Order.noted (number : Nat) (order : Order σ) : Order (σ × List (Nat × Event)) :=
  order.map (Listener.noted number)

def notedAll (orders : List (Order σ)) : List (Order (σ × List (Nat × Event))) :=
  orders.zipIdx.map fun order => order.1.noted order.2

/-- The calls that an order leads to behind others: one for each hearer of the event. -/
def Order.calls (before : List (Order σ)) : Order σ → List (Nat × Event)
  | publish event _ => (hearers event.name before).map fun hearer => (hearer.1, event)
  | subscribe .. | subscribeAll .. => []

def callsOf (orders : List (Order σ)) : List (Nat × Event) :=
  orders.zipIdx.flatMap fun order => order.1.calls (orders.take order.2)

theorem callsOf_concat (orders : List (Order σ)) (order : Order σ) :
    callsOf (orders ++ [order]) = callsOf orders ++ order.calls orders := by
  have hbefore : orders.zipIdx.flatMap (fun o => o.1.calls ((orders ++ [order]).take o.2)) =
      callsOf orders := by
    rw [callsOf, List.flatMap, List.flatMap]
    congr 1
    refine List.map_congr_left fun o ho => ?_
    -- what was ordered before one of these was ordered before the last one as well
    rw [List.take_append_of_le_length (Nat.le_of_lt (List.mem_zipIdx' ho).1)]
  rw [callsOf, List.zipIdx_append, List.flatMap_append, hbefore]
  simp

theorem map_snd_hearers_notedAll (name : Event.Name) (orders : List (Order σ)) :
    (hearers name (notedAll orders)).map Prod.snd =
      (hearers name orders).map fun hearer => hearer.2.noted hearer.1 := by
  rw [map_snd_hearers, notedAll, List.flatMap_map, hearers, List.map_flatMap]
  simp only [Order.noted, Order.registers_map, List.map_map]
  rfl

/-- Listeners that write down their calls do what they would do, and the notes tell of one call
each. -/
theorem Dispatcher.deliver_noted (slowMillis : Nat) (event : Event) (elapsed : Nat → Nat)
    (listeners : List (Nat × Listener σ)) (s : σ) (notes : List (Nat × Event)) :
    deliver slowMillis event elapsed (listeners.map fun l => l.2.noted l.1) (s, notes) =
      ((deliver slowMillis event elapsed (listeners.map Prod.snd) s).1,
        (deliver slowMillis event elapsed (listeners.map Prod.snd) s).2,
          notes ++ listeners.map fun l => (l.1, event)) := by
  induction listeners generalizing elapsed s notes with
  | nil => rw [List.map_nil, List.map_nil, List.map_nil, List.append_nil]; rfl
  | cons l rest ih =>
    have hrest := ih (fun place => elapsed (place + 1)) (l.2.effect event s)
      (notes ++ [(l.1, event)])
    rw [List.append_assoc] at hrest
    rw [List.map_cons, List.map_cons, List.map_cons]
    -- the first call leaves its effect beside its note, and the others go on from there
    show (_ ++ (deliver slowMillis event _ _ (l.2.effect event s, notes ++ [(l.1, event)])).1,
      (deliver slowMillis event _ _ (l.2.effect event s, notes ++ [(l.1, event)])).2) = _
    rw [hrest]
    rfl

/-- Notes change nothing of what is done, and tell of exactly the calls that the orders lead to. -/
theorem Exchange.after_noted (slowMillis : Nat) (s : σ) (orders : List (Order σ)) :
    ((new slowMillis (s, [])).after (notedAll orders)).state =
      (((new slowMillis s).after orders).state, callsOf orders) ∧
    ((new slowMillis (s, [])).after (notedAll orders)).warnings =
      ((new slowMillis s).after orders).warnings := by
  induction orders using List.reverseRecOn with
  | nil => exact ⟨rfl, rfl⟩
  | append_singleton orders order ih =>
    have hconcat : notedAll (orders ++ [order]) =
        notedAll orders ++ [order.noted orders.length] := by
      simp [notedAll, List.zipIdx_append]
    rw [hconcat, after_concat, after_concat, callsOf_concat]
    cases order with
    | subscribe other l =>
      rw [Order.calls, List.append_nil]
      exact ih
    | subscribeAll names l =>
      rw [Order.calls, List.append_nil]
      exact ih
    | publish event elapsed =>
      -- the notes so far tell of the calls so far, and the delivery adds one for each hearer
      have hdeliver := Dispatcher.deliver_noted slowMillis event elapsed
        (hearers event.name orders) ((new slowMillis s).after orders).state (callsOf orders)
      simp only [Order.noted, Order.map, Order.calls, obey, Dispatcher.publish, listeners_after,
        slowMillis_after, map_snd_hearers_notedAll, ih.1, ih.2, hdeliver]
      exact ⟨trivial, trivial⟩

/-- A listener that is registered twice under one name is called twice, and not for an event that
was published before. -/
example (l : Listener σ) :
    let event : Event := .of (.claim ⟨⟨"c"⟩, ⟨"h"⟩, .approved⟩)
    callsOf [.publish event atOnce, .subscribe .claimSettled l,
      .subscribeAll [.claimApproved, .claimApproved] l, .publish event atOnce] =
        [(2, event), (2, event)] := by
  rfl

/-! ### Fan-out -/

/-- How the orders given to a dispatcher are carried out. -/
structure Exchange.IsFanOut (slowMillis : Nat) (s : σ) (orders : List (Order σ)) : Prop where
  /-- Whoever was registered under a name hears of it, as often as it was registered and in the
  order of the registrations. -/
  listeners_eq : ∀ name, ((new slowMillis s).after orders).dispatcher.listeners name =
    (hearers name orders).map Prod.snd
  /-- So many they are, and these are their names. -/
  count_eq : ∀ name, ((new slowMillis s).after orders).dispatcher.count name =
    (hearers name orders).length
  listenerNames_eq : ∀ name, ((new slowMillis s).after orders).dispatcher.listenerNames name =
    (hearers name orders).map fun hearer => hearer.2.name
  /-- The names of which somebody hears are listed in the order of all names. -/
  names_eq : ((new slowMillis s).after orders).dispatcher.names =
    Event.Name.all.filter fun name => !(hearers name orders).isEmpty
  /-- An event reaches those who hear of its name, one effect after the other. -/
  published : ∀ event elapsed t,
    (((new slowMillis s).after orders).dispatcher.publish event elapsed t).2 =
      ((hearers event.name orders).map Prod.snd).foldl (Listener.effect event) t
  /-- There is one warning for each of them that does not end well, in the order of the calls, -/
  failures : ∀ event elapsed t,
    (((new slowMillis s).after orders).dispatcher.publish event elapsed t).1.filter
        (fun w => !w.report.isSlow) =
      failuresOf event ((hearers event.name orders).map Prod.snd) t
  /-- one for each that takes longer than the threshold, also in this order, -/
  delays : ∀ event elapsed t,
    (((new slowMillis s).after orders).dispatcher.publish event elapsed t).1.filter
        (fun w => w.report.isSlow) =
      delaysOf slowMillis event elapsed ((hearers event.name orders).map Prod.snd)
  /-- and no others; the warnings about one call stand together. -/
  warned : ∀ event elapsed t,
    (((new slowMillis s).after orders).dispatcher.publish event elapsed t).1 =
      warningsOf slowMillis event elapsed ((hearers event.name orders).map Prod.snd) t
  /-- Whoever publishes an event sees nothing of the warnings, nor of the times. -/
  concealed : ∀ (office : Office σ) (book : Book σ) event elapsed,
    office.dispatcher = ((new slowMillis s).after orders).dispatcher →
      office.publish event book = { book with
        published := book.published ++ [event]
        desk := (office.dispatcher.publish event elapsed book.desk).2 }
  /-- The calls that are made in the course of the orders, as the listeners note them, are one for
  each hearer of each event; the notes change nothing. -/
  called : ((new slowMillis (s, [])).after (notedAll orders)).state =
      (((new slowMillis s).after orders).state, callsOf orders) ∧
    ((new slowMillis (s, [])).after (notedAll orders)).warnings =
      ((new slowMillis s).after orders).warnings
  /-- With listeners of the same effects that always end well, the state is the same, and of the
  warnings those about calls that took too long are left. -/
  isolated : ((new slowMillis s).after (orders.map Order.calm)).state =
      ((new slowMillis s).after orders).state ∧
    ((new slowMillis s).after (orders.map Order.calm)).warnings =
      ((new slowMillis s).after orders).warnings.filter fun w => w.report.isSlow
  /-- Without an order that registers nobody under the name of an event, the event is delivered
  just the same. -/
  apart : ∀ before order behind, orders = before ++ order :: behind →
    ∀ event, order.registers event.name = [] → ∀ elapsed t,
      ((new slowMillis s).after orders).dispatcher.publish event elapsed t =
        ((new slowMillis s).after (before ++ behind)).dispatcher.publish event elapsed t

/-- Whatever listeners are registered and whatever events are published, in any order, every event
fans out to those who were registered under its name. -/
theorem Exchange.isFanOut (slowMillis : Nat) (s : σ) (orders : List (Order σ)) :
    IsFanOut slowMillis s orders := by
  constructor
  case listeners_eq => exact listeners_after slowMillis s orders
  case count_eq =>
    intro name
    rw [Dispatcher.count, listeners_after, List.length_map]
  case listenerNames_eq =>
    intro name
    rw [Dispatcher.listenerNames, listeners_after, List.map_map]
    rfl
  case names_eq =>
    refine List.filter_congr fun name _ => ?_
    rw [Dispatcher.count, listeners_after, List.length_map]
    cases hearers name orders <;> rfl
  case published =>
    intro event elapsed t
    rw [publish_after]
  case failures =>
    intro event elapsed t
    rw [publish_after, warningsOf_failed]
  case delays =>
    intro event elapsed t
    rw [publish_after, warningsOf_slow]
  case warned =>
    intro event elapsed t
    rw [publish_after]
  case concealed =>
    intro office book event elapsed hdispatcher
    rw [Office.publish, hdispatcher, publish_after, publish_after]
  case called => exact after_noted slowMillis s orders
  case isolated => exact after_calm slowMillis s orders
  case apart =>
    rintro before order behind rfl event hnone elapsed t
    have hsame : (hearers event.name (before ++ order :: behind)).map Prod.snd =
        (hearers event.name (before ++ behind)).map Prod.snd := by
      simp only [map_snd_hearers, List.flatMap_append, List.flatMap_cons, hnone, List.nil_append]
    rw [publish_after, publish_after, hsame]

end PolicyBook.Dispatch
