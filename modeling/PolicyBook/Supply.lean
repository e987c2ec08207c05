import PolicyBook.Identity
import PolicyBook.Instant
/-!
Where fresh identifiers and the time come from.

The library has no clock and draws no random numbers. What needs a fresh identifier or the time
takes it from a `Supply`, under the number of things created before. Nothing but the distinctness of
identifiers (`Supply.IsFresh`) is ever assumed of a supply.
-/
namespace PolicyBook

def lastNibble (n : Nat) : Fin 16 := ⟨n % 16, Nat.mod_lt n (by decide)⟩

/-- The last hexadecimal digits of a number, beginning with the last one. -/
def nibbles : Nat → Nat → List (Fin 16)
  | 0, _ => []
  | width + 1, n => lastNibble n :: nibbles width (n / 16)

theorem length_nibbles (width n : Nat) : (nibbles width n).length = width := by
  induction width generalizing n with
  | zero => rfl
  | succ width ih => simp [nibbles, ih]

/-- The identifier whose digits are those of a number below `2 ^ 128`. -/
def Uuid.ofNat (n : Nat) : Uuid :=
  ⟨⟨(nibbles 32 n).reverse.toArray, by simp [length_nibbles]⟩⟩

/-- Identifiers and times for things yet to be created. -/
structure Supply where
  /-- The identifier of the thing created after so many others. -/
  id : Nat → Uuid
  /-- The time at which it is created. -/
  now : Nat → Instant

/-- No two of the first so many things get the same identifier. -/
def Supply.IsFresh (supply : Supply) (count : Nat) : Prop :=
  ∀ i < count, ∀ j < count, supply.id i = supply.id j → i = j

/-- Identifiers that count up from a number, and one time for all. -/
def Supply.counting (first : Nat) (now : Instant) : Supply where
  id k := Uuid.ofNat (first + k)
  now _ := now

end PolicyBook
