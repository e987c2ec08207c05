import PolicyBook.Proofs.Interleaving.Growth
/-!
What the steps of a call do to the book.

`Operation.Effect` lists, once for all calls, what a step can do: save, insert, drop the cached
dashboard, publish, keep figures, or nothing. Every statement about the store, the cache and the
published events of a run is read off that list.

A call is committed from its first change of the book on. It cannot fail any more then, and before
that it has left no trace:

* **`Operation.effect_step`** — no step does anything else;
* **`Run.exists_step_to`** — where an operation has got, it was brought by a step of its call;
* **`Run.told_of_finished`**, **`Run.dropped_of_invalidated`** — a transition that was answered was
  published before, and a transition that is published was settled before;
* **`Run.book_of_failed`** — a call that fails has changed nothing.
-/
namespace PolicyBook

open Policy

variable {σ : Type}

namespace Operation

/-- The call cannot fail any more. -/
def IsCommitted : Operation → Prop
  | apply (.saved ..) | apply (.invalidated ..) | apply (.finished (.ok _)) => True
  | create (.inserted _) | create (.finished (.ok _)) => True
  | announce (.finished (.ok _)) => True
  | dashboard _ => True
  | _ => False

def HasFailed : Operation → Prop
  | apply (.finished (.error _)) | create (.finished (.error _))
  | announce (.finished (.error _)) => True
  | _ => False

theorem HasFailed.not_isCommitted {op : Operation} (h : op.HasFailed) : ¬op.IsCommitted := by
  intro hcommitted
  unfold HasFailed at h
  split at h
  · exact hcommitted
  · exact hcommitted
  · exact hcommitted
  · exact h

/-- The next step may change the book. -/
def IsChanging : Operation → Prop
  | apply (.judged ..) | apply (.saved ..) | apply (.invalidated ..) => True
  | create (.asked _) | create (.inserted _) => True
  | announce (.worded _) => True
  | dashboard _ => True
  | _ => False

/-- The kinds of calls. -/
inductive Family where
  | apply
  | create
  | dashboard
  | announce
  deriving DecidableEq

def family : Operation → Family
  | apply _ => .apply
  | create _ => .create
  | dashboard _ => .dashboard
  | announce _ => .announce

theorem family_step (office : Office σ) (op : Operation) (book : Book σ) :
    (op.step office book).1.family = op.family := by
  cases op <;> rfl

/-- The event that the next step publishes, if it publishes one. -/
def publishes? : Operation → Option Event
  | apply (.invalidated r change) => some (Apply.event r change)
  | announce (.worded payload) => some (.of payload)
  | _ => none

/-- What a step makes of an operation and of the book. -/
inductive Effect (office : Office σ) (book : Book σ) : Operation → Operation → Book σ → Prop where
  | rests {op : Operation} (finished : op.stage = 5) : Effect office book op op book
  /-- Something is looked up or judged, or the operation fails. -/
  | looks {op next : Operation} (before : ¬op.IsCommitted) (after : ¬next.IsCommitted)
      (silent : op.publishes? = none) : Effect office book op next book
  | saves {r kept : Record} {change : Transition} {store : Store}
      (save : book.store.save r = .ok (kept, store)) :
      Effect office book (apply (.judged r change)) (apply (.saved kept change))
        { book with store }
  | inserts {draft : Record} {store : Store} (insert : book.store.insert draft = .ok store) :
      Effect office book (create (.asked draft)) (create (.inserted draft)) { book with store }
  | drops (r : Record) (change : Transition) :
      Effect office book (apply (.saved r change)) (apply (.invalidated r change))
        (office.invalidate book)
  | answers (draft : Record) :
      Effect office book (create (.inserted draft)) (create (.finished (.ok draft)))
        (office.invalidate book)
  | tells (r : Record) (change : Transition) :
      Effect office book (apply (.invalidated r change)) (apply (.finished (.ok r)))
        (office.publish (Apply.event r change) book)
  | announces (payload : Event.Payload) :
      Effect office book (announce (.worded payload)) (announce (.finished (.ok payload)))
        (office.publish (.of payload) book)
  /-- Figures are looked up, computed or cached. -/
  | shows {query next : DashboardQuery} {cache : Cache} :
      Effect office book (dashboard query) (dashboard next) { book with cache }

theorem effect_step (office : Office σ) (op : Operation) (book : Book σ) :
    Effect office book op (op.step office book).1 (op.step office book).2 := by
  rcases op with progress | progress | progress | progress
  · cases progress with
    | asked request =>
      simp only [step, Apply.step]
      split <;> exact .looks id id rfl
    | loaded request r =>
      simp only [step, Apply.step]
      split <;> exact .looks id id rfl
    | judged r change =>
      cases hsave : book.store.save r with
      | ok saved =>
        simp only [step, Apply.step, hsave]
        exact .saves hsave
      | error fault =>
        simp only [step, Apply.step, hsave]
        exact .looks id id rfl
    | saved r change => exact .drops r change
    | invalidated r change => exact .tells r change
    | finished result => exact .rests rfl
  · cases progress with
    | asked draft =>
      cases hinsert : book.store.insert draft with
      | ok store =>
        simp only [step, Create.step, hinsert]
        exact .inserts hinsert
      | error fault =>
        simp only [step, Create.step, hinsert]
        exact .looks id id rfl
    | inserted draft => exact .answers draft
    | finished result => exact .rests rfl
  · cases progress with
    | observed generation =>
      simp only [step, DashboardQuery.step]
      split <;> exact .shows
    | asked | missed | listed | finished => exact .shows
  · cases progress with
    | asked claim policy =>
      simp only [step, Announce.step]
      split <;> exact .looks id id rfl
    | worded payload => exact .announces payload
    | finished result => exact .rests rfl

variable {office : Office σ} {op next : Operation} {book after : Book σ}

theorem Effect.isCommitted (h : Effect office book op next after) (hop : op.IsCommitted) :
    next.IsCommitted := by
  cases h with
  | rests => exact hop
  | looks before => exact absurd hop before
  | saves | inserts | drops | answers | tells | announces | shows => trivial

theorem Effect.book_eq (h : Effect office book op next after) (hnext : ¬next.IsCommitted) :
    after = book := by
  cases h with
  | rests | looks => rfl
  | saves | inserts | drops | answers | tells | announces | shows => exact absurd trivial hnext

theorem Effect.book_eq_of_not_isChanging (h : Effect office book op next after)
    (hop : ¬op.IsChanging) : after = book := by
  cases h with
  | rests | looks => rfl
  | saves | inserts | drops | answers | tells | announces | shows => exact absurd trivial hop

theorem Effect.told {r : Record} (h : Effect office book op (apply (.finished (.ok r))) after)
    (hne : op ≠ apply (.finished (.ok r))) : ∃ change, op = apply (.invalidated r change) := by
  cases h with
  | rests => exact absurd rfl hne
  | looks _ hcommitted => exact absurd trivial hcommitted
  | tells _ change => exact ⟨change, rfl⟩

theorem Effect.dropped {r : Record} {change : Transition}
    (h : Effect office book op (apply (.invalidated r change)) after)
    (hne : op ≠ apply (.invalidated r change)) : op = apply (.saved r change) := by
  cases h with
  | rests => exact absurd rfl hne
  | looks _ hcommitted => exact absurd trivial hcommitted
  | drops => rfl

theorem Effect.answered {draft : Record}
    (h : Effect office book op (create (.finished (.ok draft))) after)
    (hne : op ≠ create (.finished (.ok draft))) : op = create (.inserted draft) := by
  cases h with
  | rests => exact absurd rfl hne
  | looks _ hcommitted => exact absurd trivial hcommitted
  | answers => rfl

theorem Effect.announced {payload : Event.Payload}
    (h : Effect office book op (announce (.finished (.ok payload))) after)
    (hne : op ≠ announce (.finished (.ok payload))) : op = announce (.worded payload) := by
  cases h with
  | rests => exact absurd rfl hne
  | looks _ hcommitted => exact absurd trivial hcommitted
  | announces => rfl

theorem publishes?_of_finished (h : op.stage = 5) : op.publishes? = none := by
  rcases op with progress | progress | progress | progress
  · cases progress with
    | finished => rfl
    | asked | loaded | judged | saved | invalidated => simp [stage] at h
  · rfl
  · rfl
  · cases progress with
    | finished | asked => rfl
    | worded => simp [stage] at h

theorem Effect.published_eq (h : Effect office book op next after) :
    after.published = book.published ++ op.publishes?.toList := by
  cases h with
  | rests finished => rw [publishes?_of_finished finished, Option.toList_none, List.append_nil]
  | looks _ _ silent => rw [silent, Option.toList_none, List.append_nil]
  | saves | inserts | drops | answers | shows => exact (List.append_nil _).symm
  | tells | announces => rfl

/-- The listeners are called for what a step publishes, and otherwise left alone. -/
theorem Effect.desk_eq (h : Effect office book op next after) :
    after.desk = op.publishes?.toList.foldl
      (fun desk e => (office.dispatcher.publish e Dispatch.atOnce desk).2) book.desk := by
  cases h with
  | rests finished => rw [publishes?_of_finished finished]; rfl
  | looks _ _ silent => rw [silent]; rfl
  | saves | inserts | drops | answers | shows | tells | announces => rfl

end Operation

/-- No call begins committed, except one for the dashboard. -/
theorem Call.begin_ne {call : Call} {op : Operation} (h : op.IsCommitted)
    (hquery : ∀ query, op ≠ .dashboard query) : call.begin ≠ op := by
  rintro rfl
  cases call with
  | dashboard => exact hquery _ rfl
  | create | apply | submitClaim | approveClaim | rejectClaim | settleClaim | createProposal
  | finalizeProposal => exact h

namespace Run

variable {run : Run σ}

theorem effect_at {t i : Nat} (hi : run.schedule t = i) :
    Operation.Effect run.office (run.book t) (run.operation t i) (run.operation (t + 1) i)
      (run.book (t + 1)) := by
  have heffect := (run.operation t i).effect_step run.office (run.book t)
  rw [operation_succ_self hi, book_succ, hi]
  exact heffect

theorem family_eq (run : Run σ) (t i : Nat) :
    (run.operation t i).family = (run.calls i).begin.family := by
  induction t with
  | zero => rfl
  | succ t ih =>
    by_cases hi : run.schedule t = i
    · rw [operation_succ_self hi, Operation.family_step, ih]
    · rw [operation_succ_of_ne hi, ih]

theorem family_eq_of_operation {t i : Nat} {op : Operation} (h : run.operation t i = op) (u : Nat) :
    (run.operation u i).family = op.family := by
  rw [← h, family_eq, family_eq]

/-! ### Published events -/

def publishes? (run : Run σ) (t : Nat) : Option Event :=
  (run.operation t (run.schedule t)).publishes?

theorem published_succ (run : Run σ) (t : Nat) :
    (run.book (t + 1)).published = (run.book t).published ++ (run.publishes? t).toList :=
  (effect_at rfl).published_eq

theorem mem_published {t : Nat} {e : Event} : e ∈ (run.book t).published ↔
    e ∈ run.start.published ∨ ∃ u < t, run.publishes? u = some e := by
  induction t with
  | zero => simp [book, after]
  | succ t ih =>
    rw [published_succ, List.mem_append, ih, Option.mem_toList, or_assoc]
    refine or_congr_right ⟨?_, ?_⟩
    · rintro (⟨u, hu, he⟩ | he)
      · exact ⟨u, by omega, he⟩
      · exact ⟨t, by omega, he⟩
    · rintro ⟨u, hu, he⟩
      rcases Nat.lt_or_eq_of_le (Nat.le_of_lt_succ hu) with hlt | rfl
      · exact .inl ⟨u, hlt, he⟩
      · exact .inr he

/-! ### Calls that fail -/

theorem isCommitted_of_le {t u i : Nat} (h : t ≤ u) (hop : (run.operation t i).IsCommitted) :
    (run.operation u i).IsCommitted := by
  induction h with
  | refl => exact hop
  | step _ ih =>
    rename_i m _
    by_cases hi : run.schedule m = i
    · exact (effect_at hi).isCommitted ih
    · rw [operation_succ_of_ne hi]
      exact ih

/-- A call that fails has changed nothing with any of its steps. -/
theorem book_of_failed {t i : Nat} (h : (run.operation t i).HasFailed) {u : Nat} (hu : u < t)
    (hi : run.schedule u = i) : run.book (u + 1) = run.book u := by
  have heffect := effect_at hi
  refine heffect.book_eq fun hcommitted => ?_
  exact h.not_isCommitted (isCommitted_of_le (show u + 1 ≤ t from hu) hcommitted)

/-! ### Where an operation comes from -/

/-- A committed operation was brought where it is by a step of its call. -/
theorem exists_step_to {t i : Nat} {op : Operation} (hop : run.operation t i = op)
    (hcommitted : op.IsCommitted) (hquery : ∀ query, op ≠ .dashboard query) :
    ∃ u < t, run.schedule u = i ∧ run.operation u i ≠ op ∧
      Operation.Effect run.office (run.book u) (run.operation u i) op (run.book (u + 1)) := by
  induction t with
  | zero => exact absurd hop (Call.begin_ne hcommitted hquery)
  | succ t ih =>
    -- the last step that made a difference is the one
    by_cases hsame : run.operation t i = op
    · obtain ⟨u, hu, hstep⟩ := ih hsame
      exact ⟨u, by omega, hstep⟩
    · have hi : run.schedule t = i := by
        refine Decidable.byContradiction fun hne => hsame ?_
        rw [← operation_succ_of_ne hne, hop]
      have heffect := effect_at hi
      rw [hop] at heffect
      exact ⟨t, by omega, hi, hsame, heffect⟩

theorem told_of_finished {t i : Nat} {r : Record}
    (h : run.operation t i = .apply (.finished (.ok r))) :
    ∃ u < t, run.schedule u = i ∧ ∃ change, run.operation u i = .apply (.invalidated r change) := by
  obtain ⟨u, hu, hi, hne, heffect⟩ := exists_step_to h trivial (by simp)
  exact ⟨u, hu, hi, heffect.told hne⟩

theorem dropped_of_invalidated {t i : Nat} {r : Record} {change : Transition}
    (h : run.operation t i = .apply (.invalidated r change)) :
    ∃ u < t, run.schedule u = i ∧ run.operation u i = .apply (.saved r change) := by
  obtain ⟨u, hu, hi, hne, heffect⟩ := exists_step_to h trivial (by simp)
  exact ⟨u, hu, hi, heffect.dropped hne⟩

theorem inserted_of_finished {t i : Nat} {draft : Record}
    (h : run.operation t i = .create (.finished (.ok draft))) :
    ∃ u < t, run.schedule u = i ∧ run.operation u i = .create (.inserted draft) := by
  obtain ⟨u, hu, hi, hne, heffect⟩ := exists_step_to h trivial (by simp)
  exact ⟨u, hu, hi, heffect.answered hne⟩

theorem worded_of_finished {t i : Nat} {payload : Event.Payload}
    (h : run.operation t i = .announce (.finished (.ok payload))) :
    ∃ u < t, run.schedule u = i ∧ run.operation u i = .announce (.worded payload) := by
  obtain ⟨u, hu, hi, hne, heffect⟩ := exists_step_to h trivial (by simp)
  exact ⟨u, hu, hi, heffect.announced hne⟩

end Run

end PolicyBook
