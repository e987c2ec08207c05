/-!
Things that are shared.

A program has handles to things of some kind. Creating a thing gives a handle to it, and the clone
of a handle is one more handle to the same thing; whatever is asked of a thing is asked through one
of its handles. Which things these are, what can be asked and how it is served is left open.
-/
namespace PolicyBook.Handles

structure Memory (σ : Type) where
  /-- The thing at a place; where none was created, it is as it would be created. -/
  things : Nat → σ
  /-- The place to which a handle refers, by the number of the handle. -/
  handles : List Nat
  created : Nat

namespace Memory

variable {σ : Type}

def before (new : Nat → σ) : Memory σ := ⟨new, [], 0⟩

def write (m : Memory σ) (place : Nat) (thing : σ) : Memory σ :=
  { m with things := fun p => if p = place then thing else m.things p }

end Memory

inductive Use (κ : Type) where
  /-- Create a thing, with a handle to it. -/
  | create
  | clone (handle : Nat)
  | ask (handle : Nat) (call : κ)

variable {σ κ α : Type}

/-- Carry out a use; a thing that was asked answers. A new handle gets the next number. -/
def Use.on (serve : κ → σ → α × σ) : Use κ → Memory σ → Option α × Memory σ
  | create, m => (none, { m with handles := m.handles ++ [m.created], created := m.created + 1 })
  | clone handle, m =>
    match m.handles[handle]? with
    | some place => (none, { m with handles := m.handles ++ [place] })
    | none => (none, m)
  | ask handle call, m =>
    match m.handles[handle]? with
    | some place =>
      let (answer, thing) := serve call (m.things place)
      (some answer, m.write place thing)
    | none => (none, m)

def run (serve : κ → σ → α × σ) (m : Memory σ) (uses : List (Use κ)) : Memory σ :=
  uses.foldl (fun m use => (use.on serve m).2) m

end PolicyBook.Handles
