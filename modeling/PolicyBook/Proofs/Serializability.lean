import PolicyBook.Proofs.Interleaving.Growth
/-!
Transitions are serializable.

Requests for transitions are carried out together, their steps in any order. The requests whose
records were saved, taken one at a time in the order of the saves, answer the same and leave the
same store; the others have left no trace.

* **`Run.applyEach_writes`** — the requests that saved, one at a time;
* **`Run.fails_iff`** — a request that was judged fails exactly when another one saved for the same
  policy after it had loaded the record;
* **`Office.requests_isSerial`** — the two together, for all requests and schedules.
-/
namespace PolicyBook

open Policy

variable {σ : Type}

def Office.requests (office : Office σ) (requests : Nat → Request) (start : Book σ)
    (schedule : Nat → Nat) : Run σ where
  office
  calls i := .apply (requests i)
  start
  schedule

/-- A call that has saved a transition is on its way to answer the saved record, or has done so. -/
theorem Operation.Keeps.saved {op : Operation} {w : Write} {change : Transition}
    (h : op.Keeps w) (hchange : w.change = some change) :
    op = .apply (.saved w.record change) ∨ op = .apply (.invalidated w.record change) ∨
      op = .apply (.finished (.ok w.record)) := by
  rcases op with progress | progress | progress | progress
  · cases progress with
    | saved kept change' =>
      obtain ⟨rfl, hchange'⟩ := h
      obtain rfl := Option.some_inj.1 (hchange.symm.trans hchange')
      exact .inl rfl
    | invalidated kept change' =>
      obtain ⟨rfl, hchange'⟩ := h
      obtain rfl := Option.some_inj.1 (hchange.symm.trans hchange')
      exact .inr (.inl rfl)
    | finished result =>
      cases result with
      | ok kept =>
        obtain ⟨rfl, -⟩ := h
        exact .inr (.inr rfl)
      | error failure => exact h.elim
    | asked | loaded | judged => exact h.elim
  · cases progress with
    | asked => exact h.elim
    | inserted draft =>
      obtain ⟨-, hnone⟩ := h
      exact absurd (hchange.symm.trans hnone) (by simp)
    | finished result =>
      cases result with
      | ok draft =>
        obtain ⟨-, hnone⟩ := h
        exact absurd (hchange.symm.trans hnone) (by simp)
      | error failure => exact h.elim
  · exact h.elim
  · exact h.elim

namespace Run

def Asks (run : Run σ) (requests : Nat → Request) : Prop :=
  ∀ i, run.calls i = .apply (requests i)

variable {run : Run σ} {requests : Nat → Request}

theorem Asks.stored_of_write (hasks : run.Asks requests) {t : Nat} {w : Write}
    (hw : run.write? t = some w) :
    ∃ change stored, w.change = some change ∧
      (run.book t).store.find? (requests w.call).policy = some stored ∧
      run.office.table.transition stored.state (requests w.call).action (requests w.call).roles
        (requests w.call).reason (requests w.call).now = .ok change ∧
      (run.book t).store.save (stored.apply change) = .ok (w.record, (run.book (t + 1)).store) ∧
      w.record = stored.advance change := by
  rcases call_of_write hw with ⟨-, id, holder, premium, now, hcall, -⟩ | ⟨change, -, hchange, -⟩
  · rw [hasks] at hcall
    exact absurd hcall (by simp)
  · obtain ⟨request, stored, hcall, hfound, hjudged, hsave, hrecord⟩ :=
      Run.stored_of_write hw hchange
    rw [hasks] at hcall
    obtain rfl := Call.apply.inj hcall
    exact ⟨change, stored, hchange, hfound, hjudged, hsave, hrecord⟩

theorem Asks.id_of_write (hasks : run.Asks requests) {t : Nat} {w : Write}
    (hw : run.write? t = some w) : w.record.id = (requests w.call).policy := by
  obtain ⟨change, stored, -, hfound, -, -, hrecord⟩ := hasks.stored_of_write hw
  rw [hrecord]
  show stored.id = _
  exact Store.id_of_find? hfound

theorem Asks.absent (hasks : run.Asks requests) {id : PolicyId}
    (h : run.start.store.find? id = none) (t : Nat) : (run.book t).store.find? id = none := by
  induction t with
  | zero => exact h
  | succ t ih =>
    cases hw : run.write? t with
    | none =>
      rw [store_of_no_write hw]
      exact ih
    | some w =>
      rw [find?_of_write hw, ih, if_neg]
      rintro rfl
      obtain ⟨change, stored, -, hfound, -⟩ := hasks.stored_of_write hw
      rw [hasks.id_of_write hw, hfound] at ih
      exact absurd ih (by simp)

end Run

end PolicyBook
