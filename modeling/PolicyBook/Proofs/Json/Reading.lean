import PolicyBook.Json.Reading
import PolicyBook.Proofs.Json.Compact
/-!
What is written on one line is read back.

The reader takes the compact text of a value off and stops where the text ends, whatever closes what
stands around it. So it answers the value itself, unless lists and objects nest too deep: then the
text is still taken off, and the part has no value.

* **`Json.IsExact`** — the values in which every number is an integer of sixty-four bits;
* **`Json.numeral?_integer`** — integers are read back;
* **`Json.takeRaw?_compact`** — the compact text of a value is taken off, in front of anything that
  may follow it;
* **`Json.ofChars?_compact`** — a whole text.
-/
namespace PolicyBook.Json

open Text

/-- Every number in a value is an integer of sixty-four bits, with a sign or without. -/
inductive IsExact : Json → Prop where
  | null : IsExact .null
  | bool (b : Bool) : IsExact (.bool b)
  | int (n : Int) (least : -(twoTo 63 : Int) ≤ n) (greatest : n ≤ (maxWord : Int)) :
      IsExact (.int n)
  | str (s : String) : IsExact (.str s)
  | arr (items : List Json) (each : ∀ v ∈ items, IsExact v) : IsExact (.arr items)
  | obj (members : List (String × Json)) (each : ∀ m ∈ members, IsExact m.2) :
      IsExact (.obj members)

theorem IsExact.firstFloat?_eq {v : Json} (h : v.IsExact) : v.firstFloat? = none := by
  induction h with
  | null | bool | int | str => rfl
  | arr items _ ih => exact firstFloatOfItems?_eq_none_iff.2 ih
  | obj members _ ih => exact firstFloatOfMembers?_eq_none_iff.2 ih

mutual

def depth : Json → Nat
  | .arr items => depthOfItems items + 1
  | .obj members => depthOfMembers members + 1
  | .null | .bool _ | .int _ | .float _ | .str _ => 0

def depthOfItems : List Json → Nat
  | [] => 0
  | v :: vs => max v.depth (depthOfItems vs)

def depthOfMembers : List (String × Json) → Nat
  | [] => 0
  | (_, v) :: rest => max v.depth (depthOfMembers rest)

end

/-! ### What may follow a value -/

/-- What closes what stands around a value: nothing stands here, or a comma or a closing bracket. -/
def IsClosed (rest : List Char) : Prop := ∀ c ∈ rest.head?, c = ',' ∨ c = ']' ∨ c = '\x7d'

theorem isClosed_nil : IsClosed [] := fun _ h => absurd h (by simp)

theorem isClosed_cons {c : Char} (h : c = ',' ∨ c = ']' ∨ c = '\x7d') (rest : List Char) :
    IsClosed (c :: rest) := by
  intro d hd
  obtain rfl : c = d := by simpa using hd
  exact h

theorem IsClosed.head?_ne {rest : List Char} (h : IsClosed rest) {c : Char}
    (hc : c ≠ ',' ∧ c ≠ ']' ∧ c ≠ '\x7d') : rest.head? ≠ some c := by
  intro hhead
  rcases h c hhead with heq | heq | heq
  · exact hc.1 heq
  · exact hc.2.1 heq
  · exact hc.2.2 heq

theorem IsClosed.undigited {rest : List Char} (h : IsClosed rest) : Undigited rest := by
  intro c hc
  rcases h c hc with rfl | rfl | rfl <;> rfl

theorem isClosed_joinedTail {α : Type} {write : α → List Char} {closing : Char}
    (h : closing = ']' ∨ closing = '\x7d') (xs : List α) (r : List Char) :
    IsClosed (joinedTail write closing r xs) := by
  cases xs with
  | nil => exact isClosed_cons (.inr h) r
  | cons x xs => exact isClosed_cons (.inl rfl) _

/-! ### Integers -/

def Numeral.ofInt : Int → Numeral
  | .ofNat n => ⟨false, (decimal n).map digitValue, [], none⟩
  | .negSucc n => ⟨true, (decimal (n + 1)).map digitValue, [], none⟩

theorem wholeDigits?_decimal (n : Nat) {rest : List Char} (h : Undigited rest) :
    wholeDigits? (decimal n ++ rest) = some ((decimal n).map digitValue, rest) := by
  have hdigits : digits (decimal n ++ rest).length (decimal n ++ rest) =
      ((decimal n).map digitValue, rest) :=
    digits_append _ (fun _ => isDigit_of_mem_decimal) (by simp) (.inl h)
  have hidle : ¬(((decimal n).map digitValue).head? = some 0 ∧
      1 < ((decimal n).map digitValue).length) := by
    rintro ⟨hzero, hlength⟩
    -- only zero begins with a zero, and it has one digit
    rw [eq_zero_of_head?_decimal hzero] at hlength
    exact absurd hlength (by decide)
  obtain ⟨c, cs, hcs, -⟩ := decimal_eq_cons n
  rw [wholeDigits?, hdigits, hcs]
  rw [hcs] at hidle
  exact if_neg hidle

/-- A numeral without fraction and exponent ends where its digits end. -/
theorem numeral?_of_whole {negative : Bool} {cs rest : List Char} {whole : List Nat}
    (hrest : IsClosed rest) (hsign : decide (cs.head? = some '-') = negative)
    (hwhole : wholeDigits? (if negative then cs.tail else cs) = some (whole, rest)) :
    numeral? cs = some (⟨negative, whole, [], none⟩, rest) := by
  subst hsign
  have hpoint : rest.head? ≠ some '.' := hrest.head?_ne (by decide)
  have hsmall : rest.head? ≠ some 'e' := hrest.head?_ne (by decide)
  have hlarge : rest.head? ≠ some 'E' := hrest.head?_ne (by decide)
  simp only [decide_eq_true_eq] at hwhole
  simp [numeral?, hwhole, fractionDigits?, hpoint, exponent?, hsmall, hlarge]

theorem numeral?_integer (n : Int) {rest : List Char} (hrest : IsClosed rest) :
    numeral? (integer n ++ rest) = some (.ofInt n, rest) := by
  cases n with
  | ofNat n =>
    have hsign : decide ((decimal n ++ rest).head? = some '-') = false := by
      obtain ⟨c, cs, hcs, hdigit⟩ := decimal_eq_cons n
      rw [hcs]
      refine decide_eq_false fun hminus => ?_
      obtain rfl : c = '-' := Option.some_inj.1 hminus
      exact absurd hdigit (by decide)
    exact numeral?_of_whole hrest hsign (wholeDigits?_decimal n hrest.undigited)
  | negSucc n =>
    have hshape : integer (.negSucc n) ++ rest = '-' :: (decimal (n + 1) ++ rest) := rfl
    rw [hshape]
    exact numeral?_of_whole hrest rfl (wholeDigits?_decimal (n + 1) hrest.undigited)

theorem Numeral.value?_ofInt {n : Int} (least : -(twoTo 63 : Int) ≤ n)
    (greatest : n ≤ (maxWord : Int)) : (ofInt n).value? = some (.int n) := by
  cases n with
  | ofNat n =>
    have hle : n ≤ maxWord := Int.ofNat_le.1 greatest
    simp [ofInt, value?, ofDigits_decimal, hle]
  | negSucc n =>
    have hle : n + 1 ≤ twoTo 63 := by omega
    have hvalue : -((n + 1 : Nat) : Int) = Int.negSucc n := rfl
    simp [ofInt, value?, ofDigits_decimal, hle, ← hvalue]

/-! ### Texts -/

theorem text?_map_char (cs : List Char) : Piece.text? (cs.map Piece.char) = some cs := by
  induction cs with
  | nil => rfl
  | cons c cs ih =>
    rw [List.map_cons, Piece.text?, ih]
    rfl

theorem length_le_flatMap_escaped (cs : List Char) :
    cs.length ≤ (cs.flatMap escaped).length := by
  induction cs with
  | nil => exact Nat.zero_le _
  | cons c cs ih =>
    have hpos : 1 ≤ (escaped c).length := by
      rw [escaped]
      repeat' split
      all_goals simp
    rw [List.flatMap_cons, List.length_append, List.length_cons]
    omega

theorem pieces?_quote (s : String) (rest : List Char) :
    pieces? (quote s ++ rest) = some (s.toList.map Piece.char, rest) := by
  have hshape : quote s ++ rest = '"' :: (s.toList.flatMap escaped ++ '"' :: rest) := by
    simp [quote]
  rw [hshape]
  refine unquoted?_escaped s.toList rest ?_
  have := length_le_flatMap_escaped s.toList
  rw [List.length_append, List.length_cons]
  omega

/-! ### What is neither a list nor an object -/

theorem unspaced_cons {c : Char} (h : isSpace c = false) (cs : List Char) :
    unspaced (c :: cs) = c :: cs := by
  rw [unspaced, List.dropWhile_cons, h]
  rfl

theorem isSpace_of_kindOf? {c : Char} {k : Nat} (h : kindOf? c = some k) : isSpace c = false := by
  rw [Bool.eq_false_iff]
  intro hspace
  have hcases : c = ' ' ∨ c = '\n' ∨ c = '\t' ∨ c = '\r' := by
    simpa [isSpace, or_assoc] using hspace
  have hnone : kindOf? c = none := by
    rcases hcases with rfl | rfl | rfl | rfl <;> rfl
  rw [hnone] at h
  exact absurd h (by simp)

theorem takeRaw?_of_scalar {c : Char} {k : Nat} (hkind : kindOf? c = some k) (hlist : k ≠ 5)
    (hobject : k ≠ 6) (steps levels : Nat) (cs : List Char) :
    takeRaw? (steps + 1) levels (c :: cs) = scalar? (c :: cs) := by
  rw [takeRaw?, unspaced_cons (isSpace_of_kindOf? hkind)]
  split
  · next heq =>
    obtain rfl := (List.cons.inj heq).1
    exact absurd (Option.some_inj.1 hkind).symm hlist
  · next heq =>
    obtain rfl := (List.cons.inj heq).1
    exact absurd (Option.some_inj.1 hkind).symm hobject
  · rfl

theorem scalar?_of_number {c : Char} (hkind : kindOf? c = some 2) (cs : List Char) :
    scalar? (c :: cs) =
      (numeral? (c :: cs)).map fun result => (.ofOption result.1.value?, result.2) := by
  have hother (d : Char) (hd : kindOf? d ≠ some 2) : c ≠ d := by
    rintro rfl
    exact hd hkind
  rw [scalar?]
  · cases numeral? (c :: cs) <;> rfl
  all_goals
    intro _ heq
    exact hother _ (by simp [kindOf?]) (List.cons.inj heq).1

theorem integer_eq_cons (n : Int) : ∃ c cs, integer n = c :: cs ∧ kindOf? c = some 2 :=
  compact_eq_cons (v := .int n) rfl

theorem scalar?_compact {v : Json} (hv : v.IsExact) (hlist : v.kind ≠ 5) (hobject : v.kind ≠ 6)
    {rest : List Char} (hrest : IsClosed rest) :
    scalar? (v.compact ++ rest) = some (.value v, rest) := by
  cases hv with
  | null => rfl
  | bool b => cases b <;> rfl
  | int n least greatest =>
    obtain ⟨c, cs, hcs, hkind⟩ := integer_eq_cons n
    have hnumeral := numeral?_integer n hrest
    rw [compact]
    rw [hcs] at hnumeral ⊢
    rw [List.cons_append, scalar?_of_number hkind, ← List.cons_append, hnumeral, Option.map_some,
      Numeral.value?_ofInt least greatest]
    rfl
  | str s =>
    have hpieces := pieces?_quote s rest
    have hshape : quote s ++ rest = '"' :: (s.toList.flatMap escaped ++ ['"'] ++ rest) := rfl
    rw [compact, hshape, scalar?, ← hshape, hpieces]
    simp only [Option.bind_eq_bind, Option.bind_some, text?_map_char, Option.map_some,
      String.ofList_toList]
    rfl
  | arr items => exact absurd rfl hlist
  | obj members => exact absurd rfl hobject

/-! ### Lists and objects -/

/-- The compact text of a value is taken off in front of what closes it; what is taken off has a
value as long as the levels suffice, and then it is this value. -/
def IsTaken (v : Json) : Prop :=
  ∀ steps levels rest, IsClosed rest → 2 * (v.compact ++ rest).length ≤ steps + 1 →
    ∃ r, takeRaw? steps levels (v.compact ++ rest) = some (r, rest) ∧
      r.value? = if v.depth ≤ levels then some v else none

theorem itemValues?_cons {levels : Nat} {r : Raw} {v : Json} {rs : List Raw} {vs : List Json}
    (hr : r.value? = if v.depth ≤ levels then some v else none)
    (hrs : Raw.itemValues? rs = if depthOfItems vs ≤ levels then some vs else none) :
    Raw.itemValues? (r :: rs) =
      if depthOfItems (v :: vs) ≤ levels then some (v :: vs) else none := by
  rw [Raw.itemValues?, hr, hrs, depthOfItems]
  simp only [Nat.max_le]
  by_cases hv : v.depth ≤ levels
  · by_cases hvs : depthOfItems vs ≤ levels <;> simp [hv, hvs]
  · simp [hv]

theorem memberValues?_cons {levels : Nat} {r : Raw} {m : String × Json}
    {rs : List (String × Raw)} {ms : List (String × Json)}
    (hr : r.value? = if m.2.depth ≤ levels then some m.2 else none)
    (hrs : Raw.memberValues? rs = if depthOfMembers ms ≤ levels then some ms else none) :
    Raw.memberValues? ((m.1, r) :: rs) =
      if depthOfMembers (m :: ms) ≤ levels then some (m :: ms) else none := by
  obtain ⟨name, v⟩ := m
  rw [Raw.memberValues?, hr, hrs, depthOfMembers]
  simp only [Nat.max_le]
  by_cases hv : v.depth ≤ levels
  · by_cases hms : depthOfMembers ms ≤ levels <;> simp [hv, hms]
  · simp [hv]

theorem exists_steps_of_item {x : Json} {xs : List Json} {rest : List Char} {steps : Nat}
    (h : 2 * (x.compact ++ joinedTail compact ']' rest xs).length ≤ steps) :
    ∃ n, steps = n + 1 := by
  have hpos : 1 ≤ (joinedTail compact ']' rest xs).length := by
    cases xs <;> simp [joinedTail]
  rw [List.length_append] at h
  exact Nat.exists_eq_add_one_of_ne_zero (by omega)

theorem takeItems?_joined {x : Json} {xs : List Json} (hitems : ∀ v ∈ x :: xs, v.IsTaken)
    (rest : List Char) (levels steps : Nat)
    (hsteps : 2 * (x.compact ++ joinedTail compact ']' rest xs).length ≤ steps) :
    ∃ rs, takeItems? steps levels (x.compact ++ joinedTail compact ']' rest xs) = some (rs, rest) ∧
      Raw.itemValues? rs = if depthOfItems (x :: xs) ≤ levels then some (x :: xs) else none := by
  induction xs generalizing x steps with
  | nil =>
    obtain ⟨steps, rfl⟩ := exists_steps_of_item hsteps
    obtain ⟨r, htake, hvalue⟩ := hitems x List.mem_cons_self steps levels
      (joinedTail compact ']' rest []) (isClosed_joinedTail (.inl rfl) _ _) hsteps
    refine ⟨[r], ?_, itemValues?_cons hvalue (if_pos (Nat.zero_le _)).symm⟩
    rw [takeItems?, htake]
    rfl
  | cons y ys ih =>
    obtain ⟨steps, rfl⟩ := exists_steps_of_item hsteps
    obtain ⟨r, htake, hvalue⟩ := hitems x List.mem_cons_self steps levels
      (joinedTail compact ']' rest (y :: ys)) (isClosed_joinedTail (.inl rfl) _ _) hsteps
    obtain ⟨rs, hrest, hvalues⟩ := ih (x := y)
      (fun v hv => hitems v (List.mem_cons_of_mem _ hv)) steps (by
        rw [joinedTail, List.length_append, List.length_cons] at hsteps
        omega)
    refine ⟨r :: rs, ?_, itemValues?_cons hvalue hvalues⟩
    rw [takeItems?, htake]
    show takeItems? steps levels (y.compact ++ joinedTail compact ']' rest ys) >>= _ = _
    rw [hrest]
    rfl

/-- A member as the reader takes it off, its name in pieces. -/
def inPieces (m : String × Raw) : List Piece × Raw := (m.1.toList.map Piece.char, m.2)

theorem pieces?_compactMember (m : String × Json) (tail : List Char) :
    pieces? (unspaced (compactMember m ++ tail)) =
      some (m.1.toList.map Piece.char, ':' :: (m.2.compact ++ tail)) := by
  have hshape : compactMember m ++ tail = quote m.1 ++ (':' :: (m.2.compact ++ tail)) := by
    simp [compactMember]
  have hspace : unspaced (quote m.1 ++ (':' :: (m.2.compact ++ tail))) =
      quote m.1 ++ (':' :: (m.2.compact ++ tail)) := rfl
  rw [hshape, hspace, pieces?_quote]

/-- A member takes a step of its own, and its value has the steps that are left. -/
theorem exists_steps_of_member {m : String × Json} {tail : List Char} {steps : Nat}
    (h : 2 * (compactMember m ++ tail).length ≤ steps) :
    ∃ n, steps = n + 1 ∧ 2 * (m.2.compact ++ tail).length ≤ n + 1 := by
  simp only [compactMember, List.length_append, List.length_cons] at h ⊢
  exact ⟨steps - 1, by omega, by omega⟩

theorem takeMembers?_joined {m : String × Json} {ms : List (String × Json)}
    (hmembers : ∀ m' ∈ m :: ms, m'.2.IsTaken) (rest : List Char) (levels steps : Nat)
    (hsteps : 2 * (compactMember m ++ joinedTail compactMember '\x7d' rest ms).length ≤ steps) :
    ∃ rs : List (String × Raw),
      takeMembers? steps levels (compactMember m ++ joinedTail compactMember '\x7d' rest ms) =
        some (rs.map inPieces, rest) ∧
      Raw.memberValues? rs =
        if depthOfMembers (m :: ms) ≤ levels then some (m :: ms) else none := by
  induction ms generalizing m steps with
  | nil =>
    have hpieces := pieces?_compactMember m (joinedTail compactMember '\x7d' rest [])
    obtain ⟨steps, rfl, hbound⟩ := exists_steps_of_member hsteps
    obtain ⟨r, htake, hvalue⟩ := hmembers m List.mem_cons_self steps levels
      (joinedTail compactMember '\x7d' rest []) (isClosed_joinedTail (.inr rfl) _ _) hbound
    refine ⟨[(m.1, r)], ?_, memberValues?_cons hvalue (if_pos (Nat.zero_le _)).symm⟩
    rw [takeMembers?, hpieces]
    show takeRaw? steps levels (m.2.compact ++ _) >>= _ = _
    rw [htake]
    rfl
  | cons m' ms ih =>
    have hpieces := pieces?_compactMember m (joinedTail compactMember '\x7d' rest (m' :: ms))
    obtain ⟨steps, rfl, hbound⟩ := exists_steps_of_member hsteps
    obtain ⟨r, htake, hvalue⟩ := hmembers m List.mem_cons_self steps levels
      (joinedTail compactMember '\x7d' rest (m' :: ms)) (isClosed_joinedTail (.inr rfl) _ _) hbound
    obtain ⟨rs, hrest, hvalues⟩ := ih
      (fun m hm => hmembers m (List.mem_cons_of_mem _ hm)) steps (by
        rw [joinedTail, List.length_append, List.length_cons] at hsteps
        omega)
    refine ⟨(m.1, r) :: rs, ?_, memberValues?_cons hvalue hvalues⟩
    rw [takeMembers?, hpieces]
    show takeRaw? steps levels (m.2.compact ++ _) >>= _ = _
    rw [htake]
    show takeMembers? steps levels
      (compactMember m' ++ joinedTail compactMember '\x7d' rest ms) >>= _ = _
    rw [hrest]
    rfl

theorem ofMembers_map_inPieces (rs : List (String × Raw)) :
    Raw.ofMembers (rs.map inPieces) = .object rs := by
  have hnamed : (rs.map inPieces).mapM (fun m =>
      (Piece.text? m.1).map fun name => (String.ofList name, m.2)) = some rs := by
    induction rs with
    | nil => rfl
    | cons m rest ih =>
      rw [List.map_cons, List.mapM_cons, ih, inPieces, text?_map_char]
      simp
  rw [Raw.ofMembers, hnamed]
  rfl

theorem value?_nested {v : Json} {d levels : Nat} {r : Raw} (hdepth : v.depth = d + 1)
    (hr : r.value? = if d ≤ levels - 1 then some v else none) :
    (if levels = 0 then Raw.unreadable else r).value? =
      if v.depth ≤ levels then some v else none := by
  rw [hdepth]
  by_cases hlevels : levels = 0
  · rw [if_pos hlevels, if_neg (by omega)]
    rfl
  · have hless : d + 1 ≤ levels ↔ d ≤ levels - 1 := by omega
    rw [if_neg hlevels, hr]
    simp only [hless]

theorem takeRaw?_list {c : Char} {k : Nat} (hkind : kindOf? c = some k) (steps levels : Nat)
    (cs : List Char) :
    takeRaw? (steps + 1) levels ('[' :: c :: cs) =
      (takeItems? steps (levels - 1) (c :: cs)).map fun result =>
        (if levels = 0 then .unreadable else .list result.1, result.2) := by
  have hspace : unspaced (c :: cs) = c :: cs := unspaced_cons (isSpace_of_kindOf? hkind) cs
  have hopen : unspaced ('[' :: c :: cs) = '[' :: c :: cs := rfl
  have hclosing : c ≠ ']' := by
    rintro rfl
    exact absurd hkind (by simp [kindOf?])
  rw [takeRaw?, hopen]
  simp only [hspace]
  split
  · next heq => exact absurd (List.cons.inj heq).1 hclosing
  · cases takeItems? steps (levels - 1) (c :: cs) <;> rfl

theorem isTaken_arr {items : List Json} (hitems : ∀ v ∈ items, v.IsTaken)
    (hexact : ∀ v ∈ items, v.IsExact) : (Json.arr items).IsTaken := by
  intro steps levels rest _ hsteps
  have hshape : (Json.arr items).compact ++ rest =
      '[' :: (joined [','] (items.map compact) ++ ']' :: rest) := by
    simp [compact, compactItems_eq_map]
  rw [hshape, List.length_cons] at hsteps
  rw [hshape]
  obtain ⟨steps, rfl⟩ := Nat.exists_eq_add_one_of_ne_zero (show steps ≠ 0 by omega)
  cases items with
  | nil => exact ⟨_, rfl, value?_nested (d := 0) rfl (if_pos (Nat.zero_le _)).symm⟩
  | cons x xs =>
    rw [joined_cons] at hsteps ⊢
    obtain ⟨rs, htake, hvalues⟩ := takeItems?_joined hitems rest (levels - 1) steps
      (by omega)
    obtain ⟨c, cs, hcs, hkind⟩ := compact_eq_cons (hexact x List.mem_cons_self).firstFloat?_eq
    refine ⟨if levels = 0 then .unreadable else .list rs, ?_, value?_nested rfl ?_⟩
    · rw [hcs, List.cons_append] at htake ⊢
      rw [takeRaw?_list hkind, htake]
      rfl
    · rw [Raw.value?, hvalues]
      split <;> rfl

theorem takeRaw?_object (steps levels : Nat) (cs : List Char) :
    takeRaw? (steps + 1) levels ('\x7b' :: '"' :: cs) =
      (takeMembers? steps (levels - 1) ('"' :: cs)).map fun result =>
        (if levels = 0 then .unreadable else .ofMembers result.1, result.2) := by
  have hopen : unspaced ('\x7b' :: '"' :: cs) = '\x7b' :: '"' :: cs := rfl
  have hspace : unspaced ('"' :: cs) = '"' :: cs := rfl
  rw [takeRaw?, hopen]
  simp only [hspace]
  split
  · next heq => exact absurd (List.cons.inj heq).1 (by decide)
  · cases takeMembers? steps (levels - 1) ('"' :: cs) <;> rfl

theorem isTaken_obj {members : List (String × Json)} (hmembers : ∀ m ∈ members, m.2.IsTaken) :
    (Json.obj members).IsTaken := by
  intro steps levels rest _ hsteps
  have hshape : (Json.obj members).compact ++ rest =
      '\x7b' :: (joined [','] (members.map compactMember) ++ '\x7d' :: rest) := by
    simp [compact, compactMembers_eq_map]
  rw [hshape, List.length_cons] at hsteps
  rw [hshape]
  obtain ⟨steps, rfl⟩ := Nat.exists_eq_add_one_of_ne_zero (show steps ≠ 0 by omega)
  cases members with
  | nil => exact ⟨_, rfl, value?_nested (d := 0) rfl (if_pos (Nat.zero_le _)).symm⟩
  | cons m ms =>
    rw [joined_cons] at hsteps ⊢
    obtain ⟨rs, htake, hvalues⟩ := takeMembers?_joined hmembers rest (levels - 1) steps
      (by omega)
    refine ⟨if levels = 0 then .unreadable else .object rs, ?_, value?_nested rfl ?_⟩
    · have hquote : compactMember m ++ joinedTail compactMember '\x7d' rest ms =
          '"' :: (m.1.toList.flatMap escaped ++ ['"'] ++ (':' :: m.2.compact) ++
            joinedTail compactMember '\x7d' rest ms) := rfl
      rw [hquote] at htake ⊢
      rw [takeRaw?_object, htake, Option.map_some, ofMembers_map_inPieces]
    · rw [Raw.value?, hvalues]
      split <;> rfl

/-! ### Values -/

theorem isTaken_of_scalar {v : Json} (hv : v.IsExact) (hlist : v.kind ≠ 5) (hobject : v.kind ≠ 6)
    (hdepth : v.depth = 0) : v.IsTaken := by
  intro steps levels rest hrest hsteps
  obtain ⟨c, cs, hcs, hkind⟩ := compact_eq_cons hv.firstFloat?_eq
  have hscalar := scalar?_compact hv hlist hobject hrest
  rw [hcs, List.cons_append] at hscalar
  rw [hcs, List.cons_append, List.length_cons] at hsteps
  obtain ⟨steps, rfl⟩ := Nat.exists_eq_add_one_of_ne_zero (show steps ≠ 0 by omega)
  refine ⟨.value v, ?_, ?_⟩
  · rw [hcs, List.cons_append, takeRaw?_of_scalar hkind hlist hobject, hscalar]
  · rw [hdepth, if_pos (Nat.zero_le _)]
    rfl

/-- The compact text of a value is taken off, in front of anything that may follow it. -/
theorem takeRaw?_compact {v : Json} (hv : v.IsExact) : v.IsTaken := by
  induction hv with
  | null => exact isTaken_of_scalar .null (by simp [kind]) (by simp [kind]) rfl
  | bool b => exact isTaken_of_scalar (.bool b) (by simp [kind]) (by simp [kind]) rfl
  | int n least greatest =>
    exact isTaken_of_scalar (.int n least greatest) (by simp [kind]) (by simp [kind]) rfl
  | str s => exact isTaken_of_scalar (.str s) (by simp [kind]) (by simp [kind]) rfl
  | arr items hexact ih => exact isTaken_arr ih hexact
  | obj members _ ih => exact isTaken_obj ih

/-- The compact text of a value is read back, unless lists and objects nest too deep in it. -/
theorem ofChars?_compact {v : Json} (hv : v.IsExact) :
    ofChars? v.compact = if v.depth ≤ maxNesting then some v else none := by
  obtain ⟨r, htake, hvalue⟩ := takeRaw?_compact hv (2 * v.compact.length + 1) maxNesting []
    isClosed_nil (by rw [List.append_nil]; omega)
  rw [List.append_nil] at htake
  rw [ofChars?, Raw.ofChars?, htake, ← hvalue]
  rfl

end PolicyBook.Json
