/-!
Putting a list in order.

`ordered le xs` sorts by insertion, keeping the order of elements that `le` ties. It rearranges its
input (`ordered_perm`) and its result is in order when `le` is total and transitive
(`pairwise_ordered`).
-/
namespace PolicyBook

variable {α : Type _}

/-- Insert an element in front of the first one that it does not exceed. -/
def insertOrdered (le : α → α → Bool) (x : α) : List α → List α
  | [] => [x]
  | y :: ys => if le x y then x :: y :: ys else y :: insertOrdered le x ys

/-- The elements of a list in the order of `le`. -/
def ordered (le : α → α → Bool) : List α → List α
  | [] => []
  | x :: xs => insertOrdered le x (ordered le xs)

theorem insertOrdered_perm (le : α → α → Bool) (x : α) (ys : List α) :
    (insertOrdered le x ys).Perm (x :: ys) := by
  induction ys with
  | nil => exact .refl _
  | cons y ys ih =>
    by_cases h : le x y = true
    · simp [insertOrdered, h]
    · simp only [insertOrdered, h, if_neg, Bool.false_eq_true, not_false_eq_true]
      exact (ih.cons y).trans (.swap x y ys)

theorem ordered_perm (le : α → α → Bool) (xs : List α) : (ordered le xs).Perm xs := by
  induction xs with
  | nil => exact .refl _
  | cons x xs ih => exact (insertOrdered_perm le x _).trans (ih.cons x)

theorem pairwise_insertOrdered {le : α → α → Bool}
    (trans : ∀ a b c, le a b = true → le b c = true → le a c = true)
    (total : ∀ a b, le a b = true ∨ le b a = true)
    (x : α) {ys : List α} (h : ys.Pairwise (fun a b => le a b = true)) :
    (insertOrdered le x ys).Pairwise (fun a b => le a b = true) := by
  induction ys with
  | nil => simp [insertOrdered]
  | cons y ys ih =>
    rw [List.pairwise_cons] at h
    by_cases hxy : le x y = true
    · rw [insertOrdered, if_pos hxy, List.pairwise_cons, List.pairwise_cons]
      refine ⟨fun z hz => ?_, h⟩
      rcases List.mem_cons.1 hz with rfl | hz
      · exact hxy
      · exact trans _ _ _ hxy (h.1 z hz)
    · rw [insertOrdered, if_neg hxy, List.pairwise_cons]
      refine ⟨fun z hz => ?_, ih h.2⟩
      rcases List.mem_cons.1 ((insertOrdered_perm le x ys).mem_iff.1 hz) with rfl | hz
      · exact (total _ _).resolve_left hxy
      · exact h.1 z hz

theorem pairwise_ordered {le : α → α → Bool}
    (trans : ∀ a b c, le a b = true → le b c = true → le a c = true)
    (total : ∀ a b, le a b = true ∨ le b a = true) (xs : List α) :
    (ordered le xs).Pairwise (fun a b => le a b = true) := by
  induction xs with
  | nil => simp [ordered]
  | cons x xs ih => exact pairwise_insertOrdered trans total x ih

end PolicyBook
