/-!
Texts in the order of their codes.

A code writes every character as a row of symbols. When the rows of two characters already decide
which comes first, whatever follows them, the texts they begin are in the order of the characters,
and texts that begin alike are in the order of what follows.

* **`IsOrderedCode.append_lt_iff`** — rows that begin with the codes of two characters;
* **`IsOrderedCode.flatMap_lt_or`** — different texts have different codes.
-/
namespace PolicyBook.Text

variable {σ : Type} [LT σ]

theorem append_lt_append_iff [Std.Irrefl fun x y : σ => x < y] (front : List σ) {r s : List σ} :
    front ++ r < front ++ s ↔ r < s := by
  induction front with
  | nil => rfl
  | cons x front ih => rw [List.cons_append, List.cons_append, List.cons_lt_cons_self, ih]

/-- A code decides the order of characters by itself, and that is the order of their ranks. -/
structure IsOrderedCode (code : Char → List σ) (rank : Char → Nat) : Prop where
  rank_inj : ∀ c d, rank c = rank d → c = d
  append_lt : ∀ c d, rank c < rank d → ∀ r s, code c ++ r < code d ++ s

theorem IsOrderedCode.append_lt_iff [Std.Asymm fun x y : σ => x < y] {code : Char → List σ}
    {rank : Char → Nat} (h : IsOrderedCode code rank) (c d : Char) (r s : List σ) :
    code c ++ r < code d ++ s ↔ rank c < rank d ∨ c = d ∧ r < s := by
  rcases Nat.lt_trichotomy (rank c) (rank d) with hlt | heq | hgt
  · exact iff_of_true (h.append_lt c d hlt r s) (.inl hlt)
  · obtain rfl := h.rank_inj c d heq
    simp [append_lt_append_iff]
  · have hcode := List.lt_asymm (h.append_lt d c hgt s r)
    refine iff_of_false hcode ?_
    rintro (hlt | ⟨rfl, -⟩)
    · exact Nat.lt_asymm hgt hlt
    · exact Nat.lt_irrefl _ hgt

theorem IsOrderedCode.flatMap_lt_or [Std.Asymm fun x y : σ => x < y] {code : Char → List σ}
    {rank : Char → Nat} (h : IsOrderedCode code rank) (hnil : ∀ c r, [] < code c ++ r)
    {cs ds : List Char} (hne : cs ≠ ds) :
    cs.flatMap code < ds.flatMap code ∨ ds.flatMap code < cs.flatMap code := by
  induction cs generalizing ds with
  | nil =>
    cases ds with
    | nil => exact absurd rfl hne
    | cons d ds => exact .inl (hnil d _)
  | cons c cs ih =>
    cases ds with
    | nil => exact .inr (hnil c _)
    | cons d ds =>
      rw [List.flatMap_cons, List.flatMap_cons, h.append_lt_iff, h.append_lt_iff]
      by_cases hcd : c = d
      · subst hcd
        have hrest : cs ≠ ds := fun heq => hne (congrArg (c :: ·) heq)
        exact (ih hrest).imp (fun hlt => .inr ⟨rfl, hlt⟩) fun hlt => .inr ⟨rfl, hlt⟩
      · have hrank : rank c ≠ rank d := fun heq => hcd (h.rank_inj c d heq)
        rcases Nat.lt_or_gt_of_ne hrank with hlt | hgt
        · exact .inl (.inl hlt)
        · exact .inr (.inl hgt)

end PolicyBook.Text
