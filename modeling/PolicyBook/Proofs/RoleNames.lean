import PolicyBook.Proofs.Spellings
import PolicyBook.RoleSet
/-!
Lists of roles.

Roles are named one by one, or in one text with commas between them. Both ways read every name as
`Role.parse` does and stop at the first one that is none of a role. In a text the pieces between the
commas are trimmed first, and the blank ones are passed over. What comes out is a set, so neither
the order of the names nor their number counts.

* **`Role.parse_eq_ok_iff`** — a role is read from the spellings of its name;
* **`RoleSet.parseNames_append`** — what is named in two lists is the union of both;
* **`RoleSet.parseList_eq_error_iff`** — the first piece that is neither blank nor a name is
  refused, without the blanks around it;
* **`RoleSet.lists_are_read`** — what a text is read as, how texts are put together, and that names
  are read alike in both ways.
-/
namespace PolicyBook

open Text

namespace Role

/-- A text names a role, in any case and with blanks around the name. -/
def IsNamedBy (r : Role) (cs : List Char) : Prop := IsSpelling r.name cs

variable {r : Role} {s : String}

theorem sameLetters_iff : sameLetters r.name (trim s) = true ↔ r.IsNamedBy s.toList := by
  have hname : (r.name.toList.all fun c => !isBlank c) = true := by
    cases r <;> rfl
  exact sameLetters_trim_iff (by simpa using hname)

theorem eq_of_sameLetters {r' : Role} {t : String} (h : sameLetters r.name t = true)
    (h' : sameLetters r'.name t = true) : r = r' := by
  rw [sameLetters, beq_iff_eq] at h h'
  have hnames : r.name.toList.map Char.toUpper = r'.name.toList.map Char.toUpper := h.trans h'.symm
  revert hnames
  cases r <;> cases r' <;> decide

theorem parse_eq_ok_iff : parse s = .ok r ↔ r.IsNamedBy s.toList := by
  rw [← sameLetters_iff, parse]
  cases hfind : all.find? fun r => sameLetters r.name (trim s) with
  | none =>
    have hnone := List.find?_eq_none.1 hfind r (mem_all r)
    simpa using hnone
  | some found =>
    have hfound : sameLetters found.name (trim s) = true := by simpa using List.find?_some hfind
    constructor
    · intro h
      obtain rfl := Except.ok.inj h
      exact hfound
    · intro h
      rw [eq_of_sameLetters hfound h]

theorem parse_eq_error (h : ∀ r : Role, ¬ r.IsNamedBy s.toList) :
    parse s = .error (.unknownRole s) := by
  cases hparse : parse s with
  | ok r => exact absurd (parse_eq_ok_iff.1 hparse) (h r)
  | error refusal =>
    unfold parse at hparse
    split at hparse
    · exact absurd hparse (by simp)
    · exact hparse.symm

theorem isNamedBy_trim : r.IsNamedBy (trim s).toList ↔ r.IsNamedBy s.toList := by
  rw [← sameLetters_iff, ← sameLetters_iff, trim_trim]

end Role

namespace RoleSet

/-! ### Names one by one -/

def AreNames (names : List String) : Prop :=
  ∀ x ∈ names, ∃ role, Role.parse x = .ok role

theorem areNames_cons {x : String} {names : List String} {role : Role}
    (hx : Role.parse x = .ok role) (h : AreNames names) : AreNames (x :: names) :=
  List.forall_mem_cons.2 ⟨⟨role, hx⟩, h⟩

theorem parseNames_eq_error {first rest : List String} {name : String} {refusal : Refusal}
    (hfirst : AreNames first) (h : Role.parse name = .error refusal) :
    parseNames (first ++ name :: rest) = .error refusal := by
  have hmap : (first ++ name :: rest).mapM Role.parse = .error refusal := by
    -- over the names in front, which can all be read
    induction first with
    | nil =>
      rw [List.nil_append, List.mapM_cons, h]
      rfl
    | cons x first ih =>
      obtain ⟨role, hrole⟩ := hfirst x List.mem_cons_self
      have hrest := ih fun y hy => hfirst y (List.mem_cons_of_mem x hy)
      rw [List.cons_append, List.mapM_cons, hrole, hrest]
      rfl
  rw [parseNames, hmap]
  rfl

theorem parseNames_isOk {names : List String} (h : AreNames names) :
    ∃ roles, parseNames names = .ok roles := by
  have hmap : ∃ roles, names.mapM Role.parse = .ok roles := by
    induction names with
    | nil => exact ⟨[], rfl⟩
    | cons x rest ih =>
      obtain ⟨role, hrole⟩ := h x List.mem_cons_self
      obtain ⟨roles, hroles⟩ := ih fun y hy => h y (List.mem_cons_of_mem x hy)
      refine ⟨role :: roles, ?_⟩
      rw [List.mapM_cons, hrole, hroles]
      rfl
  obtain ⟨roles, hroles⟩ := hmap
  refine ⟨.ofList roles, ?_⟩
  rw [parseNames, hroles]
  rfl

theorem parseNames_cases (names : List String) :
    (AreNames names ∧ ∃ roles, parseNames names = .ok roles) ∨
      ∃ first name rest refusal, names = first ++ name :: rest ∧ AreNames first ∧
        Role.parse name = .error refusal ∧ parseNames names = .error refusal := by
  have hsplit : AreNames names ∨ ∃ first name rest refusal,
      names = first ++ name :: rest ∧ AreNames first ∧ Role.parse name = .error refusal := by
    induction names with
    | nil => exact .inl fun x hx => absurd hx List.not_mem_nil
    | cons x names ih =>
      cases hx : Role.parse x with
      | error refusal =>
        exact .inr ⟨[], x, names, refusal, rfl, fun y hy => absurd hy List.not_mem_nil, hx⟩
      | ok role =>
        rcases ih with hall | ⟨first, name, rest, refusal, rfl, hfirst, hname⟩
        · exact .inl (areNames_cons hx hall)
        · exact .inr ⟨x :: first, name, rest, refusal, rfl, areNames_cons hx hfirst, hname⟩
  rcases hsplit with hall | ⟨first, name, rest, refusal, rfl, hfirst, hname⟩
  · exact .inl ⟨hall, parseNames_isOk hall⟩
  · exact .inr ⟨first, name, rest, refusal, rfl, hfirst, hname,
      parseNames_eq_error hfirst hname⟩

theorem contains_foldl_insert (set : RoleSet) (roles : List Role) (r : Role) :
    (roles.foldl insert set).contains r = (set.contains r || decide (r ∈ roles)) := by
  induction roles generalizing set with
  | nil => simp
  | cons x rest ih =>
    rw [List.foldl_cons, ih, contains_insert, Bool.or_assoc]
    simp

theorem contains_ofList (roles : List Role) (r : Role) :
    (ofList roles).contains r = decide (r ∈ roles) := by
  rw [ofList, contains_foldl_insert, contains_empty, Bool.false_or]

theorem ofList_append (xs ys : List Role) : ofList (xs ++ ys) = (ofList xs).union (ofList ys) := by
  refine ext fun r => ?_
  rw [contains_union, contains_ofList, contains_ofList, contains_ofList, ← Bool.decide_or]
  simp only [List.mem_append]

/-- What is named in two lists is the union of both; the first refusal counts. -/
theorem parseNames_append (xs ys : List String) :
    parseNames (xs ++ ys) = do
      let x ← parseNames xs
      let y ← parseNames ys
      return x.union y := by
  simp only [parseNames, List.mapM_append, bind_assoc, pure_bind, ofList_append]

/-- A set is read that has just the roles that are named. -/
theorem contains_of_parseNames {names : List String} {set : RoleSet}
    (h : parseNames names = .ok set) (r : Role) :
    set.contains r = true ↔ ∃ x ∈ names, r.IsNamedBy x.toList := by
  induction names generalizing set with
  | nil =>
    obtain rfl : empty = set := Except.ok.inj h
    simp
  | cons x rest ih =>
    have hsplit := parseNames_append [x] rest
    rw [List.singleton_append, h] at hsplit
    cases hx : Role.parse x with
    | error refusal =>
      have hone : parseNames [x] = .error refusal := by
        rw [parseNames, List.mapM_cons, hx]
        rfl
      rw [hone] at hsplit
      exact absurd hsplit (by simp [bind, Except.bind])
    | ok role =>
      have hone : parseNames [x] = .ok (ofList [role]) := by
        rw [parseNames, List.mapM_cons, hx]
        rfl
      rw [hone] at hsplit
      cases hrest : parseNames rest with
      | error refusal =>
        rw [hrest] at hsplit
        exact absurd hsplit (by simp [bind, Except.bind])
      | ok set' =>
        rw [hrest] at hsplit
        obtain rfl : set = (ofList [role]).union set' := Except.ok.inj hsplit
        have hhead : r.IsNamedBy x.toList ↔ r = role := by
          rw [← Role.parse_eq_ok_iff, hx, Except.ok.injEq, eq_comm]
        rw [contains_union, contains_ofList, Bool.or_eq_true, decide_eq_true_eq,
          List.mem_singleton, ih hrest, ← hhead, List.exists_mem_cons_iff]

/-! ### Pieces of a text -/

/-- A piece that may stand in a list of roles: it is blank, or it names a role. -/
def IsEntry (piece : List Char) : Prop := AllBlank piece ∨ ∃ r : Role, r.IsNamedBy piece

/-- The names that are read from pieces: the pieces without their blanks, if anything is left. -/
def wordsOf (pieces : List (List Char)) : List String :=
  ((pieces.map trimmed).filter fun piece => !piece.isEmpty).map String.ofList

theorem segments_eq_splitOn (cs : List Char) : segments cs = cs.splitOn ',' := by
  induction cs with
  | nil => rfl
  | cons c cs ih =>
    obtain ⟨piece, pieces, hsplit⟩ := List.exists_cons_of_ne_nil (List.splitOn_ne_nil ',' cs)
    rw [List.splitOn_cons_eq_if_modifyHead, segments, ih, hsplit]
    by_cases hc : c = ',' <;> simp [hc]

theorem parseList_eq (s : String) : parseList s = parseNames (wordsOf (s.toList.splitOn ',')) := by
  rw [← segments_eq_splitOn]
  rfl

theorem wordsOf_append (front back : List (List Char)) :
    wordsOf (front ++ back) = wordsOf front ++ wordsOf back := by
  simp [wordsOf]

theorem wordsOf_cons {piece : List Char} (h : ¬ AllBlank piece) (rest : List (List Char)) :
    wordsOf (piece :: rest) = trim (String.ofList piece) :: wordsOf rest := by
  have hne : (!(trimmed piece).isEmpty) = true := by
    rw [Bool.not_eq_true', List.isEmpty_eq_false_iff]
    exact mt trimmed_eq_nil_iff.1 h
  rw [wordsOf, List.map_cons, List.filter_cons, if_pos hne, List.map_cons, trim,
    String.toList_ofList, wordsOf]

theorem mem_wordsOf {pieces : List (List Char)} {x : String} :
    x ∈ wordsOf pieces ↔ ∃ piece ∈ pieces, ¬ AllBlank piece ∧ trim (String.ofList piece) = x := by
  simp only [wordsOf, List.mem_map, List.mem_filter, Bool.not_eq_true', List.isEmpty_eq_false_iff]
  constructor
  · rintro ⟨_, ⟨⟨piece, hpiece, rfl⟩, hne⟩, rfl⟩
    refine ⟨piece, hpiece, mt trimmed_eq_nil_iff.2 hne, ?_⟩
    rw [trim, String.toList_ofList]
  · rintro ⟨piece, hpiece, hblank, rfl⟩
    refine ⟨_, ⟨⟨piece, hpiece, rfl⟩, mt trimmed_eq_nil_iff.1 hblank⟩, ?_⟩
    rw [trim, String.toList_ofList]

theorem not_allBlank_of_isNamedBy {r : Role} {piece : List Char} (h : r.IsNamedBy piece) :
    ¬ AllBlank piece := by
  intro hblank
  have hsame : sameLetters r.name (trim (String.ofList piece)) = true :=
    Role.sameLetters_iff.2 (by rwa [String.toList_ofList])
  rw [trim, String.toList_ofList, trimmed_eq_nil_iff.2 hblank] at hsame
  revert hsame
  cases r <;> decide

theorem isNamedBy_word {r : Role} {piece : List Char} :
    r.IsNamedBy (trim (String.ofList piece)).toList ↔ r.IsNamedBy piece := by
  rw [Role.isNamedBy_trim, String.toList_ofList]

theorem exists_word_iff {r : Role} {pieces : List (List Char)} :
    (∃ x ∈ wordsOf pieces, r.IsNamedBy x.toList) ↔ ∃ piece ∈ pieces, r.IsNamedBy piece := by
  constructor
  · rintro ⟨x, hx, hnamed⟩
    obtain ⟨piece, hpiece, -, rfl⟩ := mem_wordsOf.1 hx
    exact ⟨piece, hpiece, isNamedBy_word.1 hnamed⟩
  · rintro ⟨piece, hpiece, hnamed⟩
    have hblank := not_allBlank_of_isNamedBy hnamed
    exact ⟨_, mem_wordsOf.2 ⟨piece, hpiece, hblank, rfl⟩, isNamedBy_word.2 hnamed⟩

theorem areNames_wordsOf {pieces : List (List Char)} (h : ∀ piece ∈ pieces, IsEntry piece) :
    AreNames (wordsOf pieces) := by
  intro x hx
  obtain ⟨piece, hpiece, hblank, rfl⟩ := mem_wordsOf.1 hx
  obtain ⟨r, hr⟩ := (h piece hpiece).resolve_left hblank
  exact ⟨r, Role.parse_eq_ok_iff.2 (isNamedBy_word.2 hr)⟩

theorem parseNames_wordsOf {front back : List (List Char)} {piece : List Char}
    (hfront : ∀ p ∈ front, IsEntry p) (h : ¬ IsEntry piece) :
    parseNames (wordsOf (front ++ piece :: back)) =
      .error (.unknownRole (trim (String.ofList piece))) := by
  rw [IsEntry, not_or, not_exists] at h
  rw [wordsOf_append, wordsOf_cons h.1]
  refine parseNames_eq_error (areNames_wordsOf hfront) (Role.parse_eq_error fun r hr => ?_)
  exact h.2 r (isNamedBy_word.1 hr)

theorem isEntry_cases (pieces : List (List Char)) :
    (∀ piece ∈ pieces, IsEntry piece) ∨
      ∃ front piece back, pieces = front ++ piece :: back ∧ (∀ p ∈ front, IsEntry p) ∧
        ¬ IsEntry piece := by
  induction pieces with
  | nil => exact .inl fun piece h => absurd h List.not_mem_nil
  | cons piece rest ih =>
    by_cases hpiece : IsEntry piece
    · rcases ih with hall | ⟨front, other, back, rfl, hfront, hother⟩
      · exact .inl (List.forall_mem_cons.2 ⟨hpiece, hall⟩)
      · exact .inr ⟨piece :: front, other, back, rfl, List.forall_mem_cons.2 ⟨hpiece, hfront⟩,
          hother⟩
    · exact .inr ⟨[], piece, rest, rfl, fun p h => absurd h List.not_mem_nil, hpiece⟩

/-! ### Texts -/

/-- A list of roles is read, or refused for its first piece that is no entry. -/
theorem parseList_cases (s : String) :
    ((∀ piece ∈ s.toList.splitOn ',', IsEntry piece) ∧ ∃ set, parseList s = .ok set) ∨
      ∃ front piece back, s.toList.splitOn ',' = front ++ piece :: back ∧
        (∀ p ∈ front, IsEntry p) ∧ ¬ IsEntry piece ∧
          parseList s = .error (.unknownRole (trim (String.ofList piece))) := by
  rw [parseList_eq]
  rcases isEntry_cases (s.toList.splitOn ',') with hall | ⟨front, piece, back, hsplit, hfront, hno⟩
  · exact .inl ⟨hall, parseNames_isOk (areNames_wordsOf hall)⟩
  · rw [hsplit]
    exact .inr ⟨front, piece, back, rfl, hfront, hno, parseNames_wordsOf hfront hno⟩

theorem parseList_eq_error_iff {s : String} {refusal : Refusal} :
    parseList s = .error refusal ↔
      ∃ front piece back, s.toList.splitOn ',' = front ++ piece :: back ∧
        (∀ p ∈ front, IsEntry p) ∧ ¬ IsEntry piece ∧
          refusal = .unknownRole (trim (String.ofList piece)) := by
  constructor
  · intro h
    rcases parseList_cases s with ⟨-, set, hset⟩ | ⟨front, piece, back, hsplit, hfront, hno, hlist⟩
    · exact absurd (h.symm.trans hset) (by simp)
    · exact ⟨front, piece, back, hsplit, hfront, hno, Except.error.inj (h.symm.trans hlist)⟩
  · rintro ⟨front, piece, back, hsplit, hfront, hno, rfl⟩
    rw [parseList_eq, hsplit]
    exact parseNames_wordsOf hfront hno

theorem contains_of_parseList {s : String} {set : RoleSet} (h : parseList s = .ok set) (r : Role) :
    set.contains r = true ↔ ∃ piece ∈ s.toList.splitOn ',', r.IsNamedBy piece := by
  rw [parseList_eq] at h
  rw [contains_of_parseNames h, exists_word_iff]

/-- What a text is read as, with the pieces between its commas. -/
structure IsReadByPieces (s : String) : Prop where
  /-- The pieces have no commas, and commas between them make up the text. -/
  pieces : [','].intercalate (s.toList.splitOn ',') = s.toList ∧
    ∀ piece ∈ s.toList.splitOn ',', ',' ∉ piece
  /-- The text is read exactly if every piece is blank or names a role. -/
  ok_iff : (∃ set, parseList s = .ok set) ↔
    ∀ piece ∈ s.toList.splitOn ',', AllBlank piece ∨ ∃ r : Role, r.IsNamedBy piece
  /-- Then it is the set of the roles that are named, and nothing else about the text counts. -/
  contains_iff : ∀ set, parseList s = .ok set →
    ∀ r, set.contains r = true ↔ ∃ piece ∈ s.toList.splitOn ',', r.IsNamedBy piece
  same : ∀ t set set', parseList s = .ok set → parseList t = .ok set' →
    (∀ r : Role, (∃ piece ∈ s.toList.splitOn ',', r.IsNamedBy piece) ↔
      ∃ piece ∈ t.toList.splitOn ',', r.IsNamedBy piece) → set = set'
  /-- Otherwise the first piece is refused that is neither, without the blanks around it. -/
  error_iff : ∀ refusal, parseList s = .error refusal ↔
    ∃ front piece back, s.toList.splitOn ',' = front ++ piece :: back ∧
      (∀ p ∈ front, AllBlank p ∨ ∃ r : Role, r.IsNamedBy p) ∧
      ¬ AllBlank piece ∧ (∀ r : Role, ¬ r.IsNamedBy piece) ∧
      refusal = .unknownRole (trim (String.ofList piece))

theorem not_mem_of_mem_splitOn {cs piece : List Char} (h : piece ∈ cs.splitOn ',') :
    ',' ∉ piece := by
  induction cs generalizing piece with
  | nil =>
    obtain rfl : piece = [] := by simpa using h
    exact List.not_mem_nil
  | cons c cs ih =>
    obtain ⟨first, rest, hsplit⟩ := List.exists_cons_of_ne_nil (List.splitOn_ne_nil ',' cs)
    rw [List.splitOn_cons_eq_if_modifyHead, hsplit] at h
    rw [hsplit] at ih
    split at h
    · rcases List.mem_cons.1 h with rfl | hrest
      · exact List.not_mem_nil
      · exact ih hrest
    · next hc =>
      rcases List.mem_cons.1 h with rfl | hrest
      · rw [List.mem_cons, not_or]
        exact ⟨fun heq => hc (by simp [← heq]), ih List.mem_cons_self⟩
      · exact ih (List.mem_cons_of_mem _ hrest)

theorem isReadByPieces (s : String) : IsReadByPieces s where
  pieces := by
    refine ⟨List.intercalate_splitOn ',', ?_⟩
    intro piece hpiece
    exact not_mem_of_mem_splitOn hpiece
  ok_iff := by
    constructor
    · rintro ⟨set, hset⟩
      rcases parseList_cases s with ⟨hall, -⟩ | ⟨front, piece, back, -, -, -, hlist⟩
      · exact hall
      · exact absurd (hset.symm.trans hlist) (by simp)
    · intro hall
      rw [parseList_eq]
      exact parseNames_isOk (areNames_wordsOf hall)
  contains_iff _ h := contains_of_parseList h
  same t set set' h h' hnamed := by
    refine ext fun r => Bool.eq_iff_iff.2 ?_
    rw [contains_of_parseList h, contains_of_parseList h', hnamed]
  error_iff refusal := by
    rw [parseList_eq_error_iff]
    simp only [IsEntry, not_or, not_exists, and_assoc]

theorem parseList_comma (a b : String) :
    parseList (a ++ "," ++ b) = do
      let x ← parseList a
      let y ← parseList b
      return x.union y := by
  have hpieces : (a ++ "," ++ b).toList.splitOn ',' =
      a.toList.splitOn ',' ++ b.toList.splitOn ',' := by
    rw [← List.splitOn_append_cons_self]
    simp
  simp only [parseList_eq]
  rw [hpieces, wordsOf_append, parseNames_append]

theorem wordsOf_intercalate {names : List String}
    (h : ∀ name ∈ names, ',' ∉ name.toList ∧ ¬ AllBlank name.toList) :
    wordsOf ((",".intercalate names).toList.splitOn ',') = names.map trim := by
  by_cases hnil : names = []
  · subst hnil
    rfl
  have hpieces : (",".intercalate names).toList.splitOn ',' = names.map String.toList := by
    rw [String.toList_intercalate]
    refine List.splitOn_intercalate ',' ?_ (by simpa using hnil)
    intro piece hpiece
    obtain ⟨name, hname, rfl⟩ := List.mem_map.1 hpiece
    exact (h name hname).1
  rw [hpieces]
  clear hnil hpieces
  induction names with
  | nil => rfl
  | cons name rest ih =>
    rw [List.map_cons, wordsOf_cons (h name List.mem_cons_self).2, String.ofList_toList,
      ih fun x hx => h x (List.mem_cons_of_mem _ hx), List.map_cons]

/-- Names are read alike one by one and as a text with commas between them: both ways give one set,
or both stop at the same name. -/
def AreReadAlike (names : List String) : Prop :=
  (∃ set, parseNames names = .ok set ∧ parseList (",".intercalate names) = .ok set) ∨
    ∃ first name rest, names = first ++ name :: rest ∧
      (∀ x ∈ first, ∃ r : Role, r.IsNamedBy x.toList) ∧ (∀ r : Role, ¬ r.IsNamedBy name.toList) ∧
      parseNames names = .error (.unknownRole name) ∧
      parseList (",".intercalate names) = .error (.unknownRole (trim name))

theorem areReadAlike {names : List String}
    (h : ∀ name ∈ names, ',' ∉ name.toList ∧ ¬ AllBlank name.toList) : AreReadAlike names := by
  have hlist : parseList (",".intercalate names) = parseNames (names.map trim) := by
    rw [parseList_eq, wordsOf_intercalate h]
  have htrim {names : List String} (hnames : AreNames names) : AreNames (names.map trim) := by
    intro x hx
    obtain ⟨name, hname, rfl⟩ := List.mem_map.1 hx
    obtain ⟨r, hr⟩ := hnames name hname
    exact ⟨r, Role.parse_eq_ok_iff.2 (Role.isNamedBy_trim.2 (Role.parse_eq_ok_iff.1 hr))⟩
  rw [AreReadAlike, hlist]
  rcases parseNames_cases names with
    ⟨hall, set, hset⟩ | ⟨first, name, rest, refusal, rfl, hfirst, hname, hrefused⟩
  · left
    obtain ⟨set', hset'⟩ := parseNames_isOk (htrim hall)
    have hsame : set' = set := by
      refine ext fun r => Bool.eq_iff_iff.2 ?_
      rw [contains_of_parseNames hset', contains_of_parseNames hset]
      simp only [List.mem_map, exists_exists_and_eq_and, Role.isNamedBy_trim]
    exact ⟨set, hset, hsame ▸ hset'⟩
  · right
    have hno (r : Role) : ¬ r.IsNamedBy name.toList := by
      intro hr
      exact absurd (hname.symm.trans (Role.parse_eq_ok_iff.2 hr)) (by simp)
    obtain rfl : refusal = .unknownRole name :=
      Except.error.inj (hname.symm.trans (Role.parse_eq_error hno))
    refine ⟨first, name, rest, rfl, ?_, hno, hrefused, ?_⟩
    · intro x hx
      obtain ⟨r, hr⟩ := hfirst x hx
      exact ⟨r, Role.parse_eq_ok_iff.1 hr⟩
    · rw [List.map_append, List.map_cons]
      refine parseNames_eq_error (htrim hfirst) (Role.parse_eq_error fun r hr => ?_)
      exact hno r (Role.isNamedBy_trim.1 hr)

/-- Every text is read by its pieces, two texts with a comma between them are read as each of them
is, and names are read alike in both ways. -/
theorem lists_are_read :
    (∀ s, IsReadByPieces s) ∧
    (∀ a b, parseList (a ++ "," ++ b) = do
      let x ← parseList a
      let y ← parseList b
      return x.union y) ∧
    ∀ names : List String, (∀ name ∈ names, ',' ∉ name.toList ∧ ¬ AllBlank name.toList) →
      AreReadAlike names := by
  refine ⟨isReadByPieces, parseList_comma, ?_⟩
  intro names h
  exact areReadAlike h

/-- Both ways stop at the second name; only one by one its blank is shown. -/
theorem broker_is_no_role :
    (∀ name ∈ ["\tAgent", "broker\u00a0", "ADMIN"],
      ',' ∉ name.toList ∧ ¬ AllBlank name.toList) ∧
    AreReadAlike ["\tAgent", "broker\u00a0", "ADMIN"] ∧
    parseNames ["\tAgent", "broker\u00a0", "ADMIN"] = .error (.unknownRole "broker\u00a0") ∧
    parseList "\tAgent,broker\u00a0,ADMIN" = .error (.unknownRole "broker") := by
  have hnames : ∀ name ∈ ["\tAgent", "broker\u00a0", "ADMIN"],
      ',' ∉ name.toList ∧ ¬ AllBlank name.toList := by decide
  exact ⟨hnames, lists_are_read.2.2 _ hnames, by rfl, by rfl⟩

end RoleSet

end PolicyBook
