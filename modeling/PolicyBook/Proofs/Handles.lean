import PolicyBook.Handles
/-!
The history of a shared thing.

Through whichever handles a thing is used, what is asked of it makes one history, and the thing is
what this history makes of it; what the program does with other things does not matter.

* **`Handles.things_run`** — a thing after uses, told from its history;
* **`Handles.getElem?_handles_run`**, **`Handles.clone_handles`** — a handle never changes the thing
  to which it refers, and its clone refers to the same.
-/
namespace PolicyBook.Handles

variable {σ κ α : Type} {serve : κ → σ → α × σ}

def Use.call? (m : Memory σ) (place : Nat) : Use κ → Option κ
  | ask handle call => if m.handles[handle]? = some place then some call else none
  | create | clone _ => none

theorem Use.call?_eq_some_iff {m : Memory σ} {place : Nat} {use : Use κ} {call : κ} :
    use.call? m place = some call ↔
      ∃ handle, use = .ask handle call ∧ m.handles[handle]? = some place := by
  cases use with
  | create => simp [call?]
  | clone handle => simp [call?]
  | ask handle other =>
    simp only [call?, Option.ite_none_right_eq_some, Option.some_inj, ask.injEq]
    constructor
    · rintro ⟨hplace, rfl⟩
      exact ⟨handle, ⟨rfl, rfl⟩, hplace⟩
    · rintro ⟨_, ⟨rfl, rfl⟩, hplace⟩
      exact ⟨hplace, rfl⟩

/-- What is asked of the thing at a place while uses are carried out. -/
def history (serve : κ → σ → α × σ) (place : Nat) : Memory σ → List (Use κ) → List κ
  | _, [] => []
  | m, use :: rest => (use.call? m place).toList ++ history serve place (use.on serve m).2 rest

theorem ask_on {m : Memory σ} {handle place : Nat} (h : m.handles[handle]? = some place)
    (call : κ) : (Use.ask handle call).on serve m =
      (some (serve call (m.things place)).1, m.write place (serve call (m.things place)).2) := by
  simp only [Use.on, h]

theorem things_on (use : Use κ) (m : Memory σ) (place : Nat) :
    (use.on serve m).2.things place =
      (use.call? m place).toList.foldl (fun thing call => (serve call thing).2)
        (m.things place) := by
  cases use with
  | create => rfl
  | clone handle =>
    simp only [Use.on]
    split <;> rfl
  | ask handle call =>
    cases hplace : m.handles[handle]? with
    | none => simp [Use.on, Use.call?, hplace]
    | some other =>
      rw [ask_on hplace]
      simp only [Use.call?, hplace, Option.some.injEq]
      by_cases hother : other = place
      · subst hother
        simp [Memory.write]
      · simp [Memory.write, hother, Ne.symm hother]

theorem things_run (m : Memory σ) (uses : List (Use κ)) (place : Nat) :
    (run serve m uses).things place =
      (history serve place m uses).foldl (fun thing call => (serve call thing).2)
        (m.things place) := by
  induction uses generalizing m with
  | nil => rfl
  | cons use rest ih =>
    rw [run, List.foldl_cons, history, List.foldl_append, ← things_on]
    exact ih _

/-- A new handle comes behind the others, which stay as they are. -/
theorem getElem?_handles_on {m : Memory σ} {handle place : Nat}
    (h : m.handles[handle]? = some place) (use : Use κ) :
    (use.on serve m).2.handles[handle]? = some place := by
  have hlt : handle < m.handles.length := (List.getElem?_eq_some_iff.1 h).1
  cases use with
  | create => exact (List.getElem?_append_left hlt).trans h
  | clone original =>
    simp only [Use.on]
    split
    · exact (List.getElem?_append_left hlt).trans h
    · exact h
  | ask other call =>
    simp only [Use.on]
    split <;> exact h

theorem getElem?_handles_run {m : Memory σ} {handle place : Nat}
    (h : m.handles[handle]? = some place) (uses : List (Use κ)) :
    (run serve m uses).handles[handle]? = some place := by
  induction uses generalizing m with
  | nil => exact h
  | cons use rest ih => exact ih (getElem?_handles_on h use)

theorem clone_handles {m : Memory σ} {handle place : Nat} (h : m.handles[handle]? = some place) :
    ((Use.clone handle).on serve m).2.handles[m.handles.length]? = some place := by
  simp only [Use.on, h]
  exact List.getElem?_concat_length

end PolicyBook.Handles
