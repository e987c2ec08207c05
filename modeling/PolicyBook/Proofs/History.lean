import PolicyBook.Proofs.Interleaving.Growth
import PolicyBook.Proofs.Lawful
/-!
What a record tells of its past.

A record that only the office writes is a draft with lawful transitions behind it: they lead from
one state to the next, the version counts them, and the last one says when the record changed. So it
is at every moment of every run that begins without records.

* **`Record.IsHistory.advance`** — a transition that the table lets through continues a history;
* **`Run.isHistory`** — every record in the store is one, and goes back to a draft that was asked
  for;
* **`Run.isFinal_of_rulesFrom`** — a record in a state without rules never changes again;
* **`Run.history_of_find?`** — all of this together.
-/
namespace PolicyBook

open Policy

variable {σ : Type}

/-- The transitions lead from one state to the other, each from where the one before has led. -/
def Transition.IsPath : State → List Transition → State → Prop
  | first, [], last => first = last
  | first, t :: rest, last => t.source = first ∧ IsPath t.target rest last

theorem Transition.isPath_concat {first last : State} {changes : List Transition}
    {t : Transition} :
    IsPath first (changes ++ [t]) last ↔ IsPath first changes t.source ∧ t.target = last := by
  induction changes generalizing first with
  | nil =>
    show t.source = first ∧ t.target = last ↔ first = t.source ∧ t.target = last
    rw [eq_comm]
  | cons change rest ih =>
    show change.source = first ∧ IsPath change.target (rest ++ [t]) last ↔
      (change.source = first ∧ IsPath change.target rest t.source) ∧ t.target = last
    rw [ih, and_assoc]

namespace Policy.Record

/-- The record is a draft with lawful transitions behind it. -/
structure IsHistory (table : Table) (r : Record) : Prop where
  /-- The version counts the transitions. -/
  version : r.version = r.transitions.length
  /-- The transitions lead from the draft to the present state. -/
  path : Transition.IsPath .draft r.transitions r.state
  /-- Without transitions it is a draft, and only then. -/
  draft : r.state = .draft ↔ r.transitions = []
  /-- A rule stands behind every transition. -/
  lawful : ∀ t ∈ r.transitions, t.IsLawful table
  /-- The record changed with the last transition, or was never changed. -/
  updated : r.updatedAt = (r.transitions.getLast?.map Transition.madeAt).getD r.createdAt

theorem isHistory_draft (table : Table) (id : PolicyId) (holder : HolderId) (premium : Nat)
    (now : Instant) : (draft id holder premium now).IsHistory table where
  version := rfl
  path := rfl
  draft := ⟨fun _ => rfl, fun _ => rfl⟩
  lawful _ ht := absurd ht List.not_mem_nil
  updated := rfl

theorem IsHistory.advance {table : Table} {r : Record} (h : r.IsHistory table) {action : Action}
    {roles : RoleSet} {reason : Option String} {now : Instant} {t : Transition}
    (ht : table.transition r.state action roles reason now = .ok t) :
    (r.advance t).IsHistory table := by
  obtain ⟨hlawful, hsource, -⟩ := Table.lawful_of_transition ht
  constructor
  case version =>
    show r.version + 1 = (r.transitions ++ [t]).length
    rw [h.version, List.length_append, List.length_singleton]
  case path =>
    show Transition.IsPath .draft (r.transitions ++ [t]) t.target
    rw [Transition.isPath_concat, hsource]
    exact ⟨h.path, rfl⟩
  case draft =>
    show t.target = .draft ↔ r.transitions ++ [t] = []
    constructor
    · intro hdraft
      exact absurd hdraft hlawful.target_ne_draft
    · intro hnil
      exact absurd hnil (by simp)
  case lawful =>
    intro t' ht'
    rcases List.mem_append.1 ht' with hold | hnew
    · exact h.lawful t' hold
    · rw [List.mem_singleton.1 hnew]
      exact hlawful
  case updated =>
    show t.madeAt = ((r.transitions ++ [t]).getLast?.map Transition.madeAt).getD r.createdAt
    rw [List.getLast?_concat]
    rfl

end Policy.Record

def Instant.epoch : Instant :=
  (ofParts? 0 0).get (by decide)

namespace Run

variable {run : Run σ}

/-- Before a moment, a call drafted the policy of a record as the record shows it. -/
def DraftedBefore (run : Run σ) (t : Nat) (r : Record) : Prop :=
  ∃ u < t, ∃ i, run.calls i = .create r.id r.holder r.premium r.createdAt ∧
    run.write? u = some ⟨i, .draft r.id r.holder r.premium r.createdAt, none⟩

/-- Every record in the store is a history, and goes back to a draft that was asked for. -/
theorem isHistory (run : Run σ) (hstart : run.start.store = .empty) (t : Nat) :
    ∀ id r, (run.book t).store.find? id = some r →
      r.IsHistory run.office.table ∧ run.DraftedBefore t r := by
  induction t with
  | zero =>
    intro id r hr
    have hempty : run.start.store.find? id = none := by rw [hstart, Store.find?_empty]
    exact absurd (hempty.symm.trans hr) (by simp)
  | succ t ih =>
    intro id r hr
    -- a step writes one record at most, and the others have the history that they had
    have hkept (id r) (hold : (run.book t).store.find? id = some r) :
        r.IsHistory run.office.table ∧ run.DraftedBefore (t + 1) r := by
      obtain ⟨hhistory, hdraft⟩ := ih id r hold
      exact ⟨hhistory, exists_lt_succ hdraft⟩
    cases hw : run.write? t with
    | none =>
      rw [store_of_no_write hw] at hr
      exact hkept id r hr
    | some w =>
      rw [find?_of_write hw] at hr
      by_cases hid : id = w.record.id
      · rw [if_pos hid] at hr
        obtain rfl := Option.some_inj.1 hr
        obtain ⟨i, record, change⟩ := w
        cases change with
        | none =>
          rcases call_of_write hw with ⟨-, id', holder, premium, now, hcall, rfl⟩ | ⟨_, _, hsome, -⟩
          · exact ⟨Record.isHistory_draft _ id' holder premium now, t, by omega, i, hcall, hw⟩
          · exact absurd hsome (by simp)
        | some change =>
          obtain ⟨request, stored, -, hfound, hjudged, -, rfl⟩ := stored_of_write hw rfl
          obtain ⟨hhistory, hdraft⟩ := hkept _ _ hfound
          exact ⟨hhistory.advance hjudged, hdraft⟩
      · rw [if_neg hid] at hr
        exact hkept id r hr

/-- From a moment on, nobody changes a record: it stays in the store as it is, and nothing is
written for its policy. -/
def IsFinal (run : Run σ) (t : Nat) (r : Record) : Prop :=
  ∀ u ≥ t, (run.book u).store.find? r.id = some r ∧ ∀ w, run.write? u = some w → w.record.id ≠ r.id

/-- Nothing is written for a policy whose record is in a state without rules. -/
theorem id_ne_of_rulesFrom {t : Nat} {r : Record} (hr : (run.book t).store.find? r.id = some r)
    (hnone : run.office.table.rulesFrom r.state = []) {w : Write} (hw : run.write? t = some w) :
    w.record.id ≠ r.id := by
  intro hid
  rw [← hid] at hr
  cases hchange : w.change with
  | none =>
    rw [absent_of_draft hw hchange] at hr
    exact absurd hr (by simp)
  | some change =>
    -- whoever loaded the record before has been overtaken, and the table lets nobody through
    obtain ⟨request, stored, -, hfound, hjudged, -, hrecord⟩ := stored_of_write hw hchange
    have hpolicy : w.record.id = request.policy := by
      rw [hrecord]
      show stored.id = _
      exact Store.id_of_find? hfound
    rw [hpolicy, hfound] at hr
    obtain rfl := Option.some_inj.1 hr
    exact absurd hjudged (Table.transition_ne_ok_of_rulesFrom hnone)

theorem isFinal_of_rulesFrom {t : Nat} {r : Record} (hr : (run.book t).store.find? r.id = some r)
    (hnone : run.office.table.rulesFrom r.state = []) : run.IsFinal t r := by
  intro u hu
  have hstays : (run.book u).store.find? r.id = some r := by
    induction hu with
    | refl => exact hr
    | step _ ih =>
      rename_i m _
      cases hw : run.write? m with
      | none =>
        rw [store_of_no_write hw]
        exact ih
      | some w =>
        rw [find?_of_write hw, if_neg (Ne.symm (id_ne_of_rulesFrom ih hnone hw))]
        exact ih
  exact ⟨hstays, fun w hw => id_ne_of_rulesFrom hstays hnone hw⟩

/-- In a run that begins without records, a record that is in the store is a draft that was asked
for, with lawful transitions behind it; in a state without rules it is final, in the standard table
when it is cancelled. -/
theorem history_of_find? (run : Run σ) (hstart : run.start.store = .empty) {t : Nat}
    {id : PolicyId} {r : Record} (hr : (run.book t).store.find? id = some r) :
    r.id = id ∧ r.IsHistory run.office.table ∧ run.DraftedBefore t r ∧
      (run.office.table.rulesFrom r.state = [] → run.IsFinal t r) ∧
      (run.office.table = .standard → r.state = .cancelled → run.IsFinal t r) := by
  obtain ⟨hhistory, hdraft⟩ := run.isHistory hstart t id r hr
  obtain rfl := Store.id_of_find? hr
  refine ⟨rfl, hhistory, hdraft, isFinal_of_rulesFrom hr, ?_⟩
  intro hstandard hcancelled
  refine isFinal_of_rulesFrom hr ?_
  rw [hstandard, Table.rulesFrom_standard_eq_nil_iff]
  exact hcancelled

/-- A policy is drafted, issued and cancelled, one call after the other. -/
def cancelling : Run Unit where
  office := ⟨.standard, "dashboard", .empty 0⟩
  calls
    | 0 => .create ⟨⟨.replicate 32 (.last 15)⟩⟩ ⟨"h"⟩ 100 .epoch
    | 1 => .apply ⟨⟨⟨.replicate 32 (.last 15)⟩⟩, .issue, .single .agent, none, .epoch⟩
    | _ => .apply ⟨⟨⟨.replicate 32 (.last 15)⟩⟩, .cancel, .single .admin, some " lapsed ", .epoch⟩
  start := .new ()
  schedule t := if t < 3 then 0 else if t < 8 then 1 else 2

theorem cancelling_history :
    ∃ r, (cancelling.book 13).store.find? ⟨⟨.replicate 32 (.last 15)⟩⟩ = some r ∧
      (r.version, r.state) = (2, .cancelled) ∧ r.IsHistory .standard ∧
      cancelling.IsFinal 13 r := by
  have hshown : ((cancelling.book 13).store.find? ⟨⟨.replicate 32 (.last 15)⟩⟩).map
      (fun r => (r.version, r.state)) = some (2, .cancelled) := by rfl
  obtain ⟨r, hr, hstate⟩ := Option.map_eq_some_iff.1 hshown
  obtain ⟨-, hhistory, -, -, hfinal⟩ := history_of_find? cancelling rfl hr
  exact ⟨r, hr, hstate, hhistory, hfinal rfl (Prod.mk.inj hstate).2⟩

end Run

end PolicyBook
