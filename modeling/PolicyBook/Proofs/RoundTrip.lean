import PolicyBook.Proofs.RoundTrip.Events
import PolicyBook.Proofs.RoundTrip.Policies
/-!
What the library writes as JSON it reads back.

There is a lemma for every type, which puts its parts together. Here it is said for everything that
is handed out, and nothing of it nests too deep to be read from a text.

* **`documents_restored`** — transitions, records, events, audit entries, notifications and figures.
-/
namespace PolicyBook

open Policy

/-- Whatever the library hands out as JSON is read back, from its form and from the line on which
the form is written. -/
theorem documents_restored :
    (∀ t : Transition, IsRestored t) ∧
    (∀ r : Record, r.IsWordSized → IsRestored r) ∧
    (∀ e : Event, e.payload.IsWordSized → IsRestored e) ∧
    (∀ e : Audit.Entry, e.IsWordSized → IsRestored e) ∧
    (∀ n : Notification, IsRestored n) ∧
    (∀ d : Dashboard, d.IsWordSized → IsRestored d) ∧
    ∀ s : Holding, s.IsWordSized → IsRestored s := by
  have hthree : 0 + 3 ≤ Json.maxNesting := by decide
  have htwo : 0 + 2 ≤ Json.maxNesting := by decide
  have hone : 0 + 1 ≤ Json.maxNesting := by decide
  refine ⟨?_, ?_, ?_, ?_, ?_, ?_, ?_⟩
  · intro t
    exact (ReadsAs.transition t).restored hone
  · intro r hr
    exact (ReadsAs.policyRecord hr).restored hthree
  · intro e he
    exact (ReadsAs.event he).restored hthree
  · intro e he
    exact (ReadsAs.entry he).restored hthree
  · intro n
    exact (ReadsAs.notification n).restored hone
  · intro d hd
    exact (ReadsAs.dashboard hd).restored htwo
  · intro s hs
    exact (ReadsAs.holding hs).restored hone

/-- The largest numbers, the first and the last instant and the last leap second are read back. -/
theorem extremes_restored :
    let first : Instant := ⟨-8334601228800, 0, by decide, by decide, by decide, by decide⟩
    let last : Instant :=
      ⟨8210266876799, 1999999999, by decide, by decide, by decide, by decide⟩
    let cancelled : Transition := ⟨.draft, .cancelled, .cancel, .system, some "\"\\\x7f\n", last⟩
    let id : PolicyId := ⟨⟨Vector.replicate 32 15⟩⟩
    let record : Record :=
      ⟨id, ⟨""⟩, Text.maxWord, .cancelled, Text.maxWord, first, last, [cancelled]⟩
    let change : Event := .of (.policy (.ofTransition id ⟨""⟩ cancelled Text.maxWord))
    let entry : Audit.Entry :=
      ⟨Text.maxWord, .claimSettled, .claim ⟨⟨""⟩, ⟨""⟩, .settled Text.maxWord⟩, .zero, .zero⟩
    let dashboard : Dashboard :=
      ⟨0, ⟨none, some Text.maxWord, none, none, none⟩, Text.maxWord, Text.maxWord⟩
    let holding : Holding := ⟨⟨""⟩, 0, Text.maxWord⟩
    (record.IsWordSized ∧ IsRestored record) ∧
    (change.payload.IsWordSized ∧ IsRestored change) ∧
    (entry.IsWordSized ∧ IsRestored entry) ∧
    (dashboard.IsWordSized ∧ IsRestored dashboard) ∧
    (holding.IsWordSized ∧ IsRestored holding) := by
  intro first last cancelled id record change entry dashboard holding
  have hrecord : record.IsWordSized := ⟨Nat.le_refl _, Nat.le_refl _⟩
  have hchange : change.payload.IsWordSized := Nat.le_refl Text.maxWord
  have hentry : entry.IsWordSized := ⟨Nat.le_refl _, Nat.le_refl Text.maxWord⟩
  have hcounts : ∀ s, ∀ n ∈ dashboard.byState.get s, n ≤ Text.maxWord := by
    intro s n hn
    cases s with
    | active =>
      obtain rfl : Text.maxWord = n := Option.some_inj.1 hn
      exact Nat.le_refl _
    | draft | renewed | expired | cancelled =>
      exact absurd hn (by simp [dashboard, StateCounts.get])
  have hdashboard : dashboard.IsWordSized := ⟨Nat.zero_le _, hcounts, Nat.le_refl _, Nat.le_refl _⟩
  have hholding : holding.IsWordSized := ⟨Nat.zero_le _, Nat.le_refl _⟩
  obtain ⟨-, hrecords, hevents, hentries, -, hdashboards, hholdings⟩ := documents_restored
  exact ⟨⟨hrecord, hrecords record hrecord⟩, ⟨hchange, hevents change hchange⟩,
    ⟨hentry, hentries entry hentry⟩, ⟨hdashboard, hdashboards dashboard hdashboard⟩,
    ⟨hholding, hholdings holding hholding⟩⟩

end PolicyBook
