import PolicyBook.Json.Writing
import PolicyBook.Proofs.Json.Normal
import PolicyBook.Proofs.Json.Quoted
import PolicyBook.Proofs.Numerals
/-!
Compact texts tell values apart.

The first character of a compact text shows what kind of value it is, and every kind shows where it
ends, a number by what follows it. So no two values without floating-point numbers are written
alike, whatever stands behind them:

* **`Json.joined_inj`** — what holds of the pieces of a list holds of the list;
* **`Json.compact_append_inj`** — a compact text and what follows it can be told apart;
* **`Json.compact_injective`** — values with one compact text are equal.
-/
namespace PolicyBook.Json

open Text

theorem compactItems_eq_map (items : List Json) : compactItems items = items.map compact := by
  induction items with
  | nil => rfl
  | cons v rest ih => rw [compactItems, ih, List.map_cons]

def compactMember (m : String × Json) : List Char := quote m.1 ++ ':' :: m.2.compact

theorem compactMembers_eq_map (members : List (String × Json)) :
    compactMembers members = members.map compactMember := by
  induction members with
  | nil => rfl
  | cons m rest ih => rw [compactMembers, ih, List.map_cons, compactMember]

/-! ### Numbers -/

theorem decimal_append_ne (n : Nat) (r s : List Char) : decimal n ++ r ≠ '-' :: s := by
  obtain ⟨c, cs, hcs, hdigit⟩ := decimal_eq_cons n
  rw [hcs]
  intro h
  obtain rfl := (List.cons.inj h).1
  exact absurd hdigit (by decide)

/-- An integer and what follows it can be told apart, as long as no digit follows. -/
theorem integer_append_inj {m n : Int} {r s : List Char} (hr : Undigited r) (hs : Undigited s)
    (h : integer m ++ r = integer n ++ s) : m = n ∧ r = s := by
  cases m with
  | ofNat m =>
    cases n with
    | ofNat n =>
      obtain ⟨rfl, hrest⟩ := decimal_append_inj hr hs h
      exact ⟨rfl, hrest⟩
    | negSucc n => exact absurd h (decimal_append_ne m r _)
  | negSucc m =>
    cases n with
    | ofNat n => exact absurd h.symm (decimal_append_ne n s _)
    | negSucc n =>
      obtain ⟨hmagnitude, hrest⟩ := decimal_append_inj hr hs (List.cons.inj h).2
      obtain rfl : m = n := by omega
      exact ⟨rfl, hrest⟩

/-! ### Kinds of values -/

def kindOf? (c : Char) : Option Nat :=
  if c = 'n' then some 0
  else if c = 't' ∨ c = 'f' then some 1
  else if c = '-' ∨ c.isDigit = true then some 2
  else if c = '"' then some 4
  else if c = '[' then some 5
  else if c = '\x7b' then some 6
  else none

def kind : Json → Nat
  | .null => 0
  | .bool _ => 1
  | .int _ => 2
  | .float _ => 3
  | .str _ => 4
  | .arr _ => 5
  | .obj _ => 6

theorem kindOf?_of_isDigit {c : Char} (h : c.isDigit = true) : kindOf? c = some 2 := by
  have hne (d : Char) (hd : d.isDigit = false) : c ≠ d := by
    rintro rfl
    rw [h] at hd
    exact absurd hd (by simp)
  rw [kindOf?, if_neg (hne _ rfl), if_neg (not_or.2 ⟨hne _ rfl, hne _ rfl⟩), if_pos (.inr h)]

theorem compact_eq_cons {v : Json} (h : v.firstFloat? = none) :
    ∃ c cs, v.compact = c :: cs ∧ kindOf? c = some v.kind := by
  cases v with
  | null => exact ⟨_, _, rfl, rfl⟩
  | bool b => cases b <;> exact ⟨_, _, rfl, rfl⟩
  | int n =>
    cases n with
    | ofNat n =>
      obtain ⟨c, cs, hcs, hdigit⟩ := decimal_eq_cons n
      exact ⟨c, cs, hcs, kindOf?_of_isDigit hdigit⟩
    | negSucc n => exact ⟨_, _, rfl, rfl⟩
  | float x => exact absurd h (by simp [firstFloat?])
  | str s => exact ⟨_, _, rfl, rfl⟩
  | arr items => exact ⟨_, _, rfl, rfl⟩
  | obj members => exact ⟨_, _, rfl, rfl⟩

theorem kind_eq_of_append {v w : Json} (hv : v.firstFloat? = none) (hw : w.firstFloat? = none)
    {r s : List Char} (h : v.compact ++ r = w.compact ++ s) : v.kind = w.kind := by
  obtain ⟨c, cs, hc, hkind⟩ := compact_eq_cons hv
  obtain ⟨d, ds, hd, hkind'⟩ := compact_eq_cons hw
  rw [hc, hd] at h
  obtain rfl := (List.cons.inj h).1
  exact Option.some_inj.1 (hkind.symm.trans hkind')

theorem compact_append_ne {v : Json} (hv : v.firstFloat? = none) {closing : Char}
    (hclosing : kindOf? closing = none) (r s : List Char) : v.compact ++ r ≠ closing :: s := by
  obtain ⟨c, cs, hc, hkind⟩ := compact_eq_cons hv
  rw [hc]
  intro h
  obtain rfl := (List.cons.inj h).1
  exact absurd (hkind.symm.trans hclosing) (by simp)

/-! ### Lists of pieces -/

section Joined

variable {α : Type} {write : α → List Char} {closing : Char}

/-- What follows a piece of a list: the other pieces, the closing bracket and what follows it. -/
def joinedTail (write : α → List Char) (closing : Char) (r : List Char) : List α → List Char
  | [] => closing :: r
  | x :: xs => ',' :: (write x ++ joinedTail write closing r xs)

theorem joined_cons (x : α) (xs : List α) (r : List Char) :
    joined [','] ((x :: xs).map write) ++ closing :: r =
      write x ++ joinedTail write closing r xs := by
  induction xs generalizing x with
  | nil => rfl
  | cons y ys ih =>
    show (write x ++ [','] ++ joined [','] ((y :: ys).map write)) ++ closing :: r = _
    rw [List.append_assoc, ih, List.append_assoc]
    rfl

theorem undigited_joinedTail (hclosing : closing.isDigit = false) (xs : List α) (r : List Char) :
    Undigited (joinedTail write closing r xs) := by
  cases xs with
  | nil => exact undigited_cons.2 hclosing
  | cons x xs => exact undigited_cons.2 rfl

/-- Whether a piece and what follows it can be told apart from another one. -/
def Apart (write : α → List Char) (x y : α) : Prop :=
  ∀ r s, Undigited r → Undigited s → write x ++ r = write y ++ s → x = y ∧ r = s

theorem joinedTail_inj (hcomma : closing ≠ ',') (hclosing : closing.isDigit = false)
    {xs ys : List α} (hapart : ∀ x ∈ xs, ∀ y ∈ ys, Apart write x y) {r s : List Char}
    (h : joinedTail write closing r xs = joinedTail write closing s ys) : xs = ys ∧ r = s := by
  induction xs generalizing ys with
  | nil =>
    cases ys with
    | nil => exact ⟨rfl, (List.cons.inj h).2⟩
    | cons y ys => exact absurd (List.cons.inj h).1 hcomma
  | cons x xs ih =>
    cases ys with
    | nil => exact absurd (List.cons.inj h).1.symm hcomma
    | cons y ys =>
      obtain ⟨rfl, htail⟩ := hapart x List.mem_cons_self y List.mem_cons_self _ _
        (undigited_joinedTail hclosing xs r) (undigited_joinedTail hclosing ys s)
        (List.cons.inj h).2
      obtain ⟨rfl, hrest⟩ := ih (fun x hx y hy => hapart x (List.mem_cons_of_mem _ hx) y
        (List.mem_cons_of_mem _ hy)) htail
      exact ⟨rfl, hrest⟩

/-- If pieces can be told apart and none opens with the closing bracket, lists can be told apart. -/
theorem joined_inj (hcomma : closing ≠ ',') (hclosing : closing.isDigit = false) {xs ys : List α}
    (hopen : ∀ x, x ∈ xs ∨ x ∈ ys → ∀ r s, write x ++ r ≠ closing :: s)
    (hapart : ∀ x ∈ xs, ∀ y ∈ ys, Apart write x y) {r s : List Char}
    (h : joined [','] (xs.map write) ++ closing :: r =
      joined [','] (ys.map write) ++ closing :: s) :
    xs = ys ∧ r = s := by
  cases xs with
  | nil =>
    cases ys with
    | nil => exact ⟨rfl, (List.cons.inj h).2⟩
    | cons y ys =>
      rw [joined_cons] at h
      exact absurd h.symm (hopen y (.inr List.mem_cons_self) _ _)
  | cons x xs =>
    cases ys with
    | nil =>
      rw [joined_cons] at h
      exact absurd h (hopen x (.inl List.mem_cons_self) _ _)
    | cons y ys =>
      -- with a comma in front, both lists are what follows a piece
      rw [joined_cons, joined_cons] at h
      exact joinedTail_inj hcomma hclosing hapart (congrArg (List.cons ',') h)

end Joined

/-! ### Values -/

theorem compactMember_apart {m m' : String × Json} (h : Apart compact m.2 m'.2) :
    Apart compactMember m m' := by
  obtain ⟨name, v⟩ := m
  obtain ⟨name', v'⟩ := m'
  intro r s hr hs heq
  rw [compactMember, compactMember, List.append_assoc, List.append_assoc] at heq
  obtain ⟨rfl, hvalue⟩ := quote_append_inj heq
  obtain ⟨rfl, hrest⟩ := h r s hr hs (List.cons.inj hvalue).2
  exact ⟨rfl, hrest⟩

theorem compactMember_append_ne (m : String × Json) (r s : List Char) :
    compactMember m ++ r ≠ '\x7d' :: s := by
  intro h
  exact absurd (List.cons.inj h).1 (by decide)

theorem compact_append_inj {v : Json} (hv : v.firstFloat? = none) :
    ∀ w : Json, w.firstFloat? = none → Apart compact v w := by
  -- the kinds agree, so only values of one kind have to be compared
  induction v using Json.induction with
  | float x => exact absurd hv (by simp [firstFloat?])
  | null =>
    intro w hw r s _ _ h
    have hkind := kind_eq_of_append hv hw h
    cases w with
    | null => exact ⟨rfl, List.append_cancel_left h⟩
    | bool | int | float | str | arr | obj => simp [kind] at hkind
  | bool b =>
    intro w hw r s _ _ h
    have hkind := kind_eq_of_append hv hw h
    cases w with
    | bool b' =>
      obtain rfl : b = b' := by
        cases b <;> cases b' <;> simp [compact] at h ⊢
      exact ⟨rfl, List.append_cancel_left h⟩
    | null | int | float | str | arr | obj => simp [kind] at hkind
  | int n =>
    intro w hw r s hr hs h
    have hkind := kind_eq_of_append hv hw h
    cases w with
    | int n' =>
      obtain ⟨rfl, hrest⟩ := integer_append_inj hr hs h
      exact ⟨rfl, hrest⟩
    | null | bool | float | str | arr | obj => simp [kind] at hkind
  | str t =>
    intro w hw r s _ _ h
    have hkind := kind_eq_of_append hv hw h
    cases w with
    | str t' =>
      obtain ⟨rfl, hrest⟩ := quote_append_inj h
      exact ⟨rfl, hrest⟩
    | null | bool | int | float | arr | obj => simp [kind] at hkind
  | arr items ih =>
    intro w hw r s _ _ h
    have hkind := kind_eq_of_append hv hw h
    cases w with
    | arr items' =>
      rw [firstFloat?, firstFloatOfItems?_eq_none_iff] at hv hw
      rw [compact, compact, compactItems_eq_map, compactItems_eq_map] at h
      have hlists : joined [','] (items.map compact) ++ ']' :: r =
          joined [','] (items'.map compact) ++ ']' :: s := by simpa using h
      have hopen (v : Json) (hmem : v ∈ items ∨ v ∈ items') (r s : List Char) :
          v.compact ++ r ≠ ']' :: s :=
        compact_append_ne (hmem.elim (hv v) (hw v)) rfl r s
      obtain ⟨rfl, hrest⟩ := joined_inj (by decide) rfl hopen
        (fun v hmem v' hmem' => ih v hmem (hv v hmem) v' (hw v' hmem')) hlists
      exact ⟨rfl, hrest⟩
    | null | bool | int | float | str | obj => simp [kind] at hkind
  | obj members ih =>
    intro w hw r s _ _ h
    have hkind := kind_eq_of_append hv hw h
    cases w with
    | obj members' =>
      rw [firstFloat?, firstFloatOfMembers?_eq_none_iff] at hv hw
      rw [compact, compact, compactMembers_eq_map, compactMembers_eq_map] at h
      have hlists : joined [','] (members.map compactMember) ++ '\x7d' :: r =
          joined [','] (members'.map compactMember) ++ '\x7d' :: s := by simpa using h
      obtain ⟨rfl, hrest⟩ := joined_inj (by decide) rfl (fun m _ => compactMember_append_ne m)
        (fun m hmem m' hmem' => compactMember_apart (ih m hmem (hv m hmem) m'.2 (hw m' hmem')))
        hlists
      exact ⟨rfl, hrest⟩
    | null | bool | int | float | str | arr => simp [kind] at hkind

theorem compact_injective {v w : Json} (hv : v.firstFloat? = none) (hw : w.firstFloat? = none)
    (h : v.compact = w.compact) : v = w := by
  have hend : Undigited [] := fun c hc => absurd hc (by simp)
  exact (compact_append_inj hv w hw [] [] hend hend (by rw [h])).1

end PolicyBook.Json
