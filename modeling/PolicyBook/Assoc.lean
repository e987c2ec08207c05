/-!
Finite maps as lists of keys with their values.

The view of a map is `get?`: the lemmas below say what every operation does to it, and nothing else
is observed.

* `get?_set : (m.set k v).get? j = if j = k then some v else m.get? j`,
* `get?_erase : (m.erase k).get? j = if j = k then none else m.get? j`.
-/
namespace PolicyBook

/-- A finite map from keys to values. -/
structure Assoc (κ ν : Type _) where
  /-- The pairs of the map; of two with one key the first counts. -/
  entries : List (κ × ν)
  deriving DecidableEq, Repr

namespace Assoc

variable {κ ν : Type _} [DecidableEq κ]

def empty : Assoc κ ν := ⟨[]⟩

def get? (m : Assoc κ ν) (k : κ) : Option ν :=
  (m.entries.find? fun entry => entry.1 = k).map Prod.snd

def erase (m : Assoc κ ν) (k : κ) : Assoc κ ν :=
  ⟨m.entries.filter fun entry => entry.1 != k⟩

def set (m : Assoc κ ν) (k : κ) (v : ν) : Assoc κ ν :=
  ⟨(k, v) :: (m.erase k).entries⟩

@[simp]
theorem get?_empty (k : κ) : (empty : Assoc κ ν).get? k = none := rfl

theorem get?_erase (m : Assoc κ ν) (k j : κ) :
    (m.erase k).get? j = if j = k then none else m.get? j := by
  obtain ⟨entries⟩ := m
  simp only [get?, erase]
  induction entries with
  | nil => simp
  | cons entry rest ih =>
    by_cases hk : entry.1 = k
    · rw [List.filter_cons_of_neg (by simp [hk]), ih]
      by_cases hj : j = k
      · simp [hj]
      · have hne : entry.1 ≠ j := fun h => hj (h.symm.trans hk)
        simp [hj, hne]
    · rw [List.filter_cons_of_pos (by simp [hk])]
      by_cases he : entry.1 = j
      · have hj : j ≠ k := fun h => hk (he.trans h)
        simp [he, hj]
      · simpa [List.find?_cons, he] using ih

theorem get?_set (m : Assoc κ ν) (k : κ) (v : ν) (j : κ) :
    (m.set k v).get? j = if j = k then some v else m.get? j := by
  by_cases hjk : j = k
  · simp [get?, set, hjk]
  · have h : (m.set k v).get? j = (m.erase k).get? j := by
      simp [get?, set, Ne.symm hjk]
    simp [h, get?_erase, hjk]

end Assoc

end PolicyBook
