import PolicyBook.Proofs.Json.Numbers
import PolicyBook.Proofs.Wiring
/-!
Only floating-point numbers are refused, and so no event is.

A value has no canonical text when a floating-point number stands somewhere in it, and then the one
that stands first is named; nothing else is in the way. What is hashed for the audit trail is put
together from numbers of the program, which are integers, and from texts. So every event has a
digest under every number and behind every predecessor, and the trail takes it up.

* **`Json.refusedForFloats`** — when a value is refused, and for which number;
* **`Event.isTakenUp`** — every trail takes an event up, and the listener never fails;
* **`only_floats_are_refused`** — the two together, with what numbers a text has.
-/
namespace PolicyBook

/-! ### Values -/

namespace Json

/-- The numbers of a value are those of a text: where an integer stands there is a numeral that is a
way to write it, and where a floating-point number stands there is a numeral that is a way to write
no integer and to which it is the nearest. -/
structure HasNumbersOf (v : Json) (text : List Char) : Prop where
  int : ∀ place i, v.at? place = some (.int i) →
    ∃ n : Numeral, n.StandsIn text ∧ n.IsInteger i
  float : ∀ place x, v.at? place = some (.float x) →
    ∃ n : Numeral, n.StandsIn text ∧ (∀ i, ¬n.IsInteger i) ∧ n.double? = some x

/-- A value has a canonical text unless there is a floating-point number in it, at whatever place;
then it is refused for the first one. -/
structure RefusedForFloats (v : Json) : Prop where
  ok_iff : (∃ cs, v.canonical = .ok cs) ↔ ∀ place x, v.at? place ≠ some (.float x)
  error_iff : ∀ x, v.canonical = .error x ↔ ∃ place, v.IsFirstFloat place x

theorem IsSpelled.hasNumbersOf {v : Json} {text : List Char} (h : v.IsSpelled text) :
    v.HasNumbersOf text where
  int place i hvalue := by
    cases h.of_at? hvalue with
    | int _ n hn hi => exact ⟨n, hn, hi⟩
  float place x hvalue := by
    cases h.of_at? hvalue with
    | float _ n hn hnone hx => exact ⟨n, hn, hnone, hx⟩

theorem canonical_of_none {v : Json} (h : v.normal.firstFloat? = none) :
    v.canonical = .ok v.canonicalText := by
  rw [canonical, h]

theorem canonical_of_some {v : Json} {x : Double} (h : v.normal.firstFloat? = some x) :
    v.canonical = .error x := by
  rw [canonical, h]

theorem refusedForFloats (v : Json) : v.RefusedForFloats where
  ok_iff := by
    rw [← at?_ne_float_iff]
    cases h : v.normal.firstFloat? with
    | none => simp [canonical_of_none h]
    | some x => simp [canonical_of_some h]
  error_iff x := by
    rw [← isFirstFloat_iff]
    cases h : v.normal.firstFloat? with
    | none => simp [canonical_of_none h]
    | some y => simp [canonical_of_some h]

end Json

/-! ### Events -/

/-- Every trail takes an event up: it has one more record, and the digest of the record is its head.
The listener that records events does just that, and answers that it is done. -/
structure Event.IsTakenUp (event : Event) : Prop where
  append : ∀ trail : Audit.Trail, ∃ next, trail.append event = .ok (next.head, next) ∧
    next.recorded = trail.recorded + 1
  listener : ∀ (τ : Type) (desk : Desk τ), ∃ next, desk.trail.append event = .ok (next.head, next) ∧
    auditor.handle event desk = (.done, { desk with trail := next })

theorem Audit.Trail.append_eq_head (trail : Trail) (event : Event) :
    trail.append event = .ok ((trail.grown event).trim.head, (trail.grown event).trim) := by
  rw [append_eq, trim_head]
  rfl

theorem Event.isTakenUp (event : Event) : event.IsTakenUp where
  append trail := ⟨_, trail.append_eq_head event, (trail.grown event).trim_recorded⟩
  listener _ desk := ⟨_, desk.trail.append_eq_head event, auditor_handle event desk⟩

/-- A numeral stands for an integer of sixty-four bits or for a floating-point number, by how it is
written; the values that are read from texts have their numbers from there. Of all values those are
refused that have a floating-point number at any place, for the first one. What is hashed for an
event always has a digest, so every trail takes every event up. -/
theorem only_floats_are_refused :
    (∀ n : Json.Numeral,
      (∀ i, n.value? = some (.int i) ↔ n.IsInteger i) ∧
      ∀ x, n.value? = some (.float x) ↔ (∀ i, ¬n.IsInteger i) ∧ n.double? = some x) ∧
    (∀ s v, Json.ofText? s = some v → v.HasNumbersOf s.toList) ∧
    (∀ v : Json, v.RefusedForFloats) ∧
    (∀ sequence name payload previous, ∃ digest,
      Audit.linkDigest sequence name payload previous = .ok digest) ∧
    ∀ event : Event, event.IsTakenUp := by
  refine ⟨fun n => ⟨?_, ?_⟩, ?_, Json.refusedForFloats, ?_, Event.isTakenUp⟩
  · intro i
    exact Json.Numeral.value?_eq_int_iff
  · intro x
    exact Json.Numeral.value?_eq_float_iff
  · intro s v h
    exact (Json.isSpelled_of_text h).hasNumbersOf
  · intro sequence name payload previous
    exact ⟨_, Audit.linkDigest_eq sequence name payload previous⟩

/-- Members are walked by their names, not as they are written: the text gives a value, and of its
two floating-point numbers minus zero is the first. -/
theorem minusZero_is_first :
    ∃ v, Json.ofText? "\x7b\"b\": [1.5], \"a\": \x7b\"z\": -0, \"k\": 2\x7d\x7d" = some v ∧
      v.HasNumbersOf "\x7b\"b\": [1.5], \"a\": \x7b\"z\": -0, \"k\": 2\x7d\x7d".toList ∧
      v.canonical = .error (.zero true) ∧ ∃ place, v.IsFirstFloat place (.zero true) := by
  obtain ⟨-, hnumbers, hrefused, -⟩ := only_floats_are_refused
  have hfirst : (Json.ofText? "\x7b\"b\": [1.5], \"a\": \x7b\"z\": -0, \"k\": 2\x7d\x7d").bind
      (fun v => v.normal.firstFloat?) = some (.zero true) := by decide +kernel
  obtain ⟨v, hv, hfloat⟩ := Option.bind_eq_some_iff.1 hfirst
  have hcanonical := Json.canonical_of_some hfloat
  exact ⟨v, hv, hnumbers _ v hv, hcanonical, ((hrefused v).error_iff _).1 hcanonical⟩

end PolicyBook
