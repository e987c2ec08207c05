import PolicyBook.Assoc
import PolicyBook.Json
/-!
A cache whose entries cannot outlive what they were computed from.

Every key has a generation: how often it was invalidated. Who fills the cache reads the generation
first, then the data, and hands the generation in with the value; the value is kept only if the key
was not invalidated in between (`Cache.put`). What can be asked of a cache, and what it answers, is
collected in `Cache.Call`.
-/
namespace PolicyBook

/-- Cached values with the generations of their keys. -/
structure Cache where
  entries : Assoc String Json
  /-- How often each key was invalidated; a key that is not there never was. -/
  generations : Assoc String Nat

namespace Cache

def empty : Cache := ⟨.empty, .empty⟩

def get? (cache : Cache) (key : String) : Option Json := cache.entries.get? key

def contains (cache : Cache) (key : String) : Bool := (cache.get? key).isSome

/-- How often a key was invalidated. -/
def generation (cache : Cache) (key : String) : Nat := (cache.generations.get? key).getD 0

/-- Drop the value of a key and begin its next generation. -/
def invalidate (cache : Cache) (key : String) : Cache where
  entries := cache.entries.erase key
  generations := cache.generations.set key (cache.generation key + 1)

/-- Whether a value computed at a generation may still be kept. -/
def admits (cache : Cache) (key : String) (observed : Nat) : Bool :=
  cache.generation key == observed

/-- Keep a value that was computed at a generation, if that is still the generation of the key. -/
def put (cache : Cache) (key : String) (value : Json) (observed : Nat) : Cache :=
  if cache.admits key observed then { cache with entries := cache.entries.set key value } else cache

inductive Call where
  | put (key : String) (value : Json) (observed : Nat)
  | get (key : String)
  | contains (key : String)
  | generation (key : String)
  /-- Say how often a key was invalidated. -/
  | count (key : String)
  | invalidate (key : String)

inductive Answer where
  | kept (yes : Bool)
  | value (v : Option Json)
  | present (yes : Bool)
  /-- A number of invalidations. -/
  | number (n : Nat)
  | done

def Call.key : Call → String
  | put key _ _ | get key | contains key | generation key | count key | invalidate key => key

def Call.on : Call → Cache → Answer × Cache
  | put key value observed, cache =>
    (.kept (cache.admits key observed), cache.put key value observed)
  | get key, cache => (.value (cache.get? key), cache)
  | contains key, cache => (.present (cache.contains key), cache)
  | generation key, cache => (.number (cache.generation key), cache)
  | count key, cache => (.number (cache.generation key), cache)
  | invalidate key, cache => (.done, cache.invalidate key)

@[simp]
theorem get?_empty (key : String) : empty.get? key = none := rfl

@[simp]
theorem generation_empty (key : String) : empty.generation key = 0 := rfl

theorem get?_invalidate (cache : Cache) (key other : String) :
    (cache.invalidate key).get? other = if other = key then none else cache.get? other :=
  cache.entries.get?_erase key other

theorem generation_invalidate (cache : Cache) (key other : String) :
    (cache.invalidate key).generation other =
      if other = key then cache.generation key + 1 else cache.generation other := by
  unfold generation invalidate
  rw [Assoc.get?_set]
  split <;> rfl

theorem get?_put (cache : Cache) (key : String) (value : Json) (observed : Nat) (other : String) :
    (cache.put key value observed).get? other =
      if cache.admits key observed ∧ other = key then some value else cache.get? other := by
  unfold put get?
  by_cases h : cache.admits key observed = true
  · simp [h, Assoc.get?_set]
  · simp [h]

@[simp]
theorem generation_put (cache : Cache) (key : String) (value : Json) (observed : Nat)
    (other : String) :
    (cache.put key value observed).generation other = cache.generation other := by
  unfold put generation
  split <;> rfl

end Cache

end PolicyBook
