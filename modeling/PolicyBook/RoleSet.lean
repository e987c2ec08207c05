import PolicyBook.Role
/-!
Sets of roles.

A set is five bits, one for each role. Its view is `contains`: two sets with the same members are
equal (`RoleSet.ext`), and each operation is described by the members of its result
(`contains_insert`, `contains_union`, `contains_inter`).
-/
namespace PolicyBook

structure RoleSet where
  /-- Bit `r.index` says whether `r` belongs to the set. -/
  bits : BitVec 5
  deriving DecidableEq, Repr

namespace RoleSet

def empty : RoleSet := ⟨0⟩

def single (r : Role) : RoleSet := ⟨BitVec.twoPow 5 r.index⟩

def contains (s : RoleSet) (r : Role) : Bool := s.bits.getLsb r.index

def union (s t : RoleSet) : RoleSet := ⟨s.bits ||| t.bits⟩

def inter (s t : RoleSet) : RoleSet := ⟨s.bits &&& t.bits⟩

def insert (s : RoleSet) (r : Role) : RoleSet := s.union (single r)

def ofList (roles : List Role) : RoleSet := roles.foldl insert empty

/-- The members in the order of their declaration. -/
def toList (s : RoleSet) : List Role := Role.all.filter s.contains

def isEmpty (s : RoleSet) : Bool := s.bits == 0

def size (s : RoleSet) : Nat := s.toList.length

def meets (s t : RoleSet) : Bool := !(s.inter t).isEmpty

/-- The first member in the order of declaration. -/
def first? (s : RoleSet) : Option Role := s.toList.head?

def braced (texts : List String) : String := "\x7b" ++ ", ".intercalate texts ++ "\x7d"

def text (s : RoleSet) : String := braced (s.toList.map Role.name)

def titles (s : RoleSet) : String := braced (s.toList.map Role.title)

/-- The pieces of a text between commas; there is always at least one. -/
def segments : List Char → List (List Char)
  | [] => [[]]
  | c :: cs =>
    match segments cs with
    | [] => [[c]]
    | piece :: pieces => if c = ',' then [] :: piece :: pieces else (c :: piece) :: pieces

/-- Read the named roles one by one; the first name that is none is refused. -/
def parseNames (names : List String) : Except Refusal RoleSet := do
  let roles ← names.mapM Role.parse
  return ofList roles

/-- Read a list of roles separated by commas. Blank pieces count for nothing, and a piece that is no
role is refused without the blanks around it. -/
def parseList (s : String) : Except Refusal RoleSet :=
  let pieces := (segments s.toList).map Text.trimmed
  parseNames ((pieces.filter fun piece => !piece.isEmpty).map String.ofList)

theorem ext {s t : RoleSet} (h : ∀ r, s.contains r = t.contains r) : s = t := by
  obtain ⟨a⟩ := s
  obtain ⟨b⟩ := t
  have hbit : ∀ i : Fin 5, a.getLsb i = b.getLsb i := by
    intro i
    match i with
    | 0 => exact h .admin
    | 1 => exact h .agent
    | 2 => exact h .underwriter
    | 3 => exact h .customer
    | 4 => exact h .system
  congr 1
  exact BitVec.eq_of_getLsbD_eq fun i hi => hbit ⟨i, hi⟩

@[simp]
theorem contains_empty (r : Role) : empty.contains r = false := by
  cases r <;> decide

theorem contains_single (r x : Role) : (single r).contains x = decide (x = r) := by
  cases r <;> cases x <;> decide

theorem contains_union (s t : RoleSet) (x : Role) :
    (s.union t).contains x = (s.contains x || t.contains x) := by
  simp [contains, union]

theorem contains_inter (s t : RoleSet) (x : Role) :
    (s.inter t).contains x = (s.contains x && t.contains x) := by
  simp [contains, inter]

theorem contains_insert (s : RoleSet) (r x : Role) :
    (s.insert r).contains x = (s.contains x || decide (x = r)) := by
  rw [insert, contains_union, contains_single]

theorem mem_toList {s : RoleSet} {r : Role} : r ∈ s.toList ↔ s.contains r = true := by
  simp [toList, Role.mem_all]

end RoleSet

end PolicyBook
