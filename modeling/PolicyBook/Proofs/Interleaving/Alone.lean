import PolicyBook.Proofs.Interleaving
/-!
Calls that nobody interrupts.

Every operation is described twice, by its steps and by what it does when nothing comes in between.
The two agree: five steps finish every call, and a call that makes them in a row does what the
operation does as a whole.

* **`Call.steps_begin`** — the steps of a call are the whole of it;
* **`Run.alone`** — so they are in a run, as long as nobody else makes a step.
-/
namespace PolicyBook

variable {σ : Type}

def Operation.steps (office : Office σ) : Nat → Operation → Book σ → Operation × Book σ
  | 0, op, book => (op, book)
  | n + 1, op, book =>
    let (op, book) := op.step office book
    op.steps office n book

/-- A call, nothing else happening. -/
def Call.alone (office : Office σ) : Call → Book σ → Operation × Book σ
  | create id holder premium now, book =>
    let (result, book) := office.create id holder premium now book
    (.create (.finished result), book)
  | apply request, book =>
    let (result, book) := office.apply request book
    (.apply (.finished result), book)
  | dashboard, book =>
    let (figures, book) := office.dashboard book
    (.dashboard (.finished figures), book)
  | submitClaim claim policy, book =>
    let (result, book) := office.submitClaim claim policy book
    (.announce (.finished (result.map .claim)), book)
  | approveClaim claim claimant, book =>
    let (progress, book) := office.approveClaim claim claimant book
    (.announce (.finished (.ok (.claim progress))), book)
  | rejectClaim claim claimant reason, book =>
    let (progress, book) := office.rejectClaim claim claimant reason book
    (.announce (.finished (.ok (.claim progress))), book)
  | settleClaim claim claimant amount, book =>
    let (progress, book) := office.settleClaim claim claimant amount book
    (.announce (.finished (.ok (.claim progress))), book)
  | createProposal proposal creator title, book =>
    let (progress, book) := office.createProposal proposal creator title book
    (.announce (.finished (.ok (.proposal progress))), book)
  | finalizeProposal proposal creator passed, book =>
    let (progress, book) := office.finalizeProposal proposal creator passed book
    (.announce (.finished (.ok (.proposal progress))), book)

theorem Operation.steps_apply (office : Office σ) (n : Nat) (progress : Apply) (book : Book σ) :
    (apply progress).steps office n book =
      (apply (progress.steps office n book).1, (progress.steps office n book).2) := by
  induction n generalizing progress book with
  | zero => rfl
  | succ n ih => exact ih _ _

theorem Call.steps_begin (office : Office σ) (call : Call) (book : Book σ) :
    call.begin.steps office 5 book = call.alone office book := by
  cases call with
  | create id holder premium now =>
    simp only [alone, Office.create]
    cases hinsert : book.store.insert (.draft id holder premium now) <;>
      simp [begin, Operation.steps, Operation.step, Create.step, hinsert]
  | apply request =>
    rw [begin, Operation.steps_apply, Apply.steps_asked]
    rfl
  | dashboard =>
    simp only [alone, Office.dashboard]
    cases hcached : office.cachedDashboard? book <;>
      simp [begin, Operation.steps, Operation.step, DashboardQuery.step, hcached]
  | submitClaim claim policy =>
    simp only [alone, Office.submitClaim]
    cases hrecord : Office.record book policy with
    | error failure =>
      simp [begin, Operation.steps, Operation.step, Announce.step, hrecord, Except.map]
    | ok r =>
      simp [begin, Operation.steps, Operation.step, Announce.step, hrecord, Except.map,
        Office.announceClaim]
  | approveClaim | rejectClaim | settleClaim | createProposal | finalizeProposal => rfl

namespace Run

variable {run : Run σ}

/-- While nobody else makes a step, a call makes its steps in a row. -/
theorem steps_of_uninterrupted {a i : Nat} (n : Nat)
    (halone : ∀ u, a ≤ u → u < a + n → run.schedule u = i) :
    (run.operation (a + n) i, run.book (a + n)) =
      (run.operation a i).steps run.office n (run.book a) := by
  induction n generalizing a with
  | zero => rfl
  | succ n ih =>
    have hi := halone a (Nat.le_refl a) (by omega)
    have hrest := ih (a := a + 1) fun u hau hu => halone u (by omega) (by omega)
    rw [show a + 1 + n = a + (n + 1) by omega, operation_succ_self hi, book_succ, hi] at hrest
    exact hrest

theorem alone {a i : Nat} (hop : run.operation a i = (run.calls i).begin)
    (halone : ∀ u, a ≤ u → u < a + 5 → run.schedule u = i) :
    (run.operation (a + 5) i, run.book (a + 5)) =
      (run.calls i).alone run.office (run.book a) := by
  rw [steps_of_uninterrupted 5 halone, hop, Call.steps_begin]

end Run

end PolicyBook
