import PolicyBook.Config
import PolicyBook.Proofs.Numerals.Values
import PolicyBook.Proofs.Spellings
/-!
The settings that variables make.

Every setting has a variable of its own and is the usual one where the variable says nothing of use.
A number is given by a numeral of at most sixty-four bits with blanks around it, so what a variable
gives can be told without the reader (`Config.Gives`), and the settings are told from that.

* **`Config.number?_eq_some_iff`** — a number is read where one is given;
* **`Config.numberOr_eq`**, **`Config.numberOr_usual`** — the number of a setting;
* **`Config.mem_unreadable_iff`** — which variables are reported;
* **`Config.variables_are_read`** — the settings, one by one, and the report.
-/
namespace PolicyBook.Config

open Text

variable {value? other? : String → Option String} {value : Option String} {n : Nat}

/-! ### Numbers -/

/-- A variable is set, and what it is set to is a numeral with blanks around it. -/
def Gives (value : Option String) (n : Nat) : Prop :=
  ∃ s, value = some s ∧ ∃ front word back,
    s.toList = front ++ word ++ back ∧ AllBlank front ∧ AllBlank back ∧ IsWord word n

theorem gives_some_iff {s : String} : Gives (some s) n ↔ IsWord (trimmed s.toList) n := by
  have hplain : ∀ word, IsWord word n → ∀ c ∈ word, isBlank c = false := by
    intro word hword
    exact hword.not_blank
  rw [trimmed_iff hplain]
  simp [Gives]

theorem number?_eq_some_iff {s : String} : number? s = some n ↔ Gives (some s) n := by
  rw [number?, word?_eq_some_iff, gives_some_iff]

theorem bind_number?_eq_some_iff : value.bind number? = some n ↔ Gives value n := by
  cases value with
  | none => simp [Gives]
  | some s => exact number?_eq_some_iff

theorem numberOr_eq (usual : Nat) (h : Gives value n) : numberOr usual value = n := by
  rw [numberOr, bind_number?_eq_some_iff.2 h]
  rfl

theorem numberOr_usual (usual : Nat) (h : ∀ n, ¬ Gives value n) : numberOr usual value = usual := by
  have hnone : value.bind number? = none := by
    refine Option.eq_none_iff_forall_not_mem.2 fun n hn => ?_
    exact h n (bind_number?_eq_some_iff.1 hn)
  rw [numberOr, hnone]
  rfl

theorem gives_decimal {front back : List Char} (hfront : AllBlank front) (hback : AllBlank back)
    (hn : n < twoTo 64) : Gives (some (.ofList (front ++ decimal n ++ back))) n :=
  ⟨_, rfl, front, _, back, String.toList_ofList, hfront, hback, isWord_decimal hn⟩

/-! ### The key -/

theorem trim_eq_empty_iff {s : String} : trim s = "" ↔ AllBlank s.toList := by
  rw [← String.toList_inj, trim, String.toList_ofList, ← trimmed_eq_nil_iff]
  rfl

theorem dashboardKey_of_text {s : String} (h : value? dashboardKeyVariable = some s)
    (hs : ¬ AllBlank s.toList) : (ofVariables value?).dashboardKey = trim s := by
  have hkept : decide (trim s ≠ "") = true := decide_eq_true (mt trim_eq_empty_iff.1 hs)
  simp only [ofVariables, h, Option.map_some, Option.filter_some, hkept, if_true, Option.getD_some]

theorem dashboardKey_usual (h : ∀ s, value? dashboardKeyVariable = some s → AllBlank s.toList) :
    (ofVariables value?).dashboardKey = standard.dashboardKey := by
  cases hvalue : value? dashboardKeyVariable with
  | none => simp only [ofVariables, hvalue, Option.map_none, Option.filter_none, Option.getD_none]
  | some s =>
    have hdropped : decide (trim s ≠ "") = false := by
      simpa using trim_eq_empty_iff.2 (h s hvalue)
    simp only [ofVariables, hvalue, Option.map_some, Option.filter_some, hdropped,
      Bool.false_eq_true, if_false, Option.getD_none]

/-! ### The report -/

theorem unreadable_iff : (value.any fun s => (number? s).isNone) = true ↔
    (∃ s, value = some s) ∧ ∀ n, ¬ Gives value n := by
  cases value with
  | none => simp
  | some s =>
    simp only [← number?_eq_some_iff]
    cases hs : number? s <;> simp [hs]

theorem mem_unreadable_iff {name : String} :
    name ∈ unreadable value? ↔
      (name = auditCapacityVariable ∨ name = slowMillisVariable) ∧
        (∃ s, value? name = some s) ∧ ∀ n, ¬ Gives (value? name) n := by
  rw [unreadable, List.mem_filter, unreadable_iff]
  simp

/-! ### Settings -/

/-- What is read from variables. -/
structure IsReadFrom (value? : String → Option String) : Prop where
  /-- The key is the text of its variable without the blanks around it, or the usual key where the
  variable is missing or blank. -/
  key : ∀ s, value? dashboardKeyVariable = some s → ¬ AllBlank s.toList →
    (ofVariables value?).dashboardKey = trim s
  usualKey : (∀ s, value? dashboardKeyVariable = some s → AllBlank s.toList) →
    (ofVariables value?).dashboardKey = standard.dashboardKey
  /-- Either way it is not empty and has no blanks around it. -/
  key_isTrimmed : (ofVariables value?).dashboardKey ≠ "" ∧
    trim (ofVariables value?).dashboardKey = (ofVariables value?).dashboardKey
  /-- The capacity is the number that its variable gives, or the usual one where it gives none, and
  it is at least one. -/
  capacity : ∀ n, Gives (value? auditCapacityVariable) n →
    (ofVariables value?).auditCapacity = max n 1
  usualCapacity : (∀ n, ¬ Gives (value? auditCapacityVariable) n) →
    (ofVariables value?).auditCapacity = standard.auditCapacity
  capacity_pos : 1 ≤ (ofVariables value?).auditCapacity
  /-- The threshold is the number that its variable gives, or the usual one. -/
  threshold : ∀ n, Gives (value? slowMillisVariable) n → (ofVariables value?).slowMillis = n
  usualThreshold : (∀ n, ¬ Gives (value? slowMillisVariable) n) →
    (ofVariables value?).slowMillis = standard.slowMillis
  /-- Every setting depends on its own variable alone. -/
  isLocal : ∀ other? : String → Option String,
    (other? dashboardKeyVariable = value? dashboardKeyVariable →
      (ofVariables other?).dashboardKey = (ofVariables value?).dashboardKey) ∧
    (other? auditCapacityVariable = value? auditCapacityVariable →
      (ofVariables other?).auditCapacity = (ofVariables value?).auditCapacity) ∧
    (other? slowMillisVariable = value? slowMillisVariable →
      (ofVariables other?).slowMillis = (ofVariables value?).slowMillis)
  /-- The variables are reported that should give a number, are set, and give none: each once, in
  the order of reading, and never the variable of the key. -/
  reported : ∀ name, name ∈ unreadable value? ↔
    (name = auditCapacityVariable ∨ name = slowMillisVariable) ∧
      (∃ s, value? name = some s) ∧ ∀ n, ¬ Gives (value? name) n
  inOrder : (unreadable value?).Sublist [auditCapacityVariable, slowMillisVariable]
  key_unreported : dashboardKeyVariable ∉ unreadable value?

theorem isReadFrom (value? : String → Option String) : IsReadFrom value? where
  key _ h hs := dashboardKey_of_text h hs
  usualKey := dashboardKey_usual
  key_isTrimmed := by
    by_cases h : ∀ s, value? dashboardKeyVariable = some s → AllBlank s.toList
    · rw [dashboardKey_usual h]
      decide
    · simp only [not_forall] at h
      obtain ⟨s, hs, hblank⟩ := h
      rw [dashboardKey_of_text hs hblank]
      exact ⟨mt trim_eq_empty_iff.1 hblank, trim_trim s⟩
  capacity n h := congrArg (max · 1) (numberOr_eq standard.auditCapacity h)
  usualCapacity h := congrArg (max · 1) (numberOr_usual standard.auditCapacity h)
  capacity_pos := Nat.le_max_right _ 1
  threshold _ h := numberOr_eq standard.slowMillis h
  usualThreshold h := numberOr_usual standard.slowMillis h
  isLocal other? := by
    refine ⟨?_, ?_, ?_⟩
    · intro h
      simp only [ofVariables, h]
    · intro h
      simp only [ofVariables, h]
    · intro h
      simp only [ofVariables, h]
  reported _ := mem_unreadable_iff
  inOrder := List.filter_sublist
  key_unreported := by
    intro h
    obtain ⟨hname, -⟩ := mem_unreadable_iff.1 h
    revert hname
    decide

/-- Settings are read from any variables. A variable gives a number if a numeral is left when its
text is trimmed, a numeral is the decimal text of its number with zeros and perhaps a plus sign in
front, and a number that is set as its decimal text, with any blanks around it, is read back. -/
theorem variables_are_read :
    (∀ value?, IsReadFrom value?) ∧
    (∀ s n, Gives (some s) n ↔ IsWord (trimmed s.toList) n) ∧
    (∀ word n, IsWord word n ↔ n < twoTo 64 ∧ ∃ k,
      word = List.replicate k '0' ++ decimal n ∨ word = '+' :: (List.replicate k '0' ++ decimal n)) ∧
    ∀ front back n, AllBlank front → AllBlank back → n < twoTo 64 → ∀ value?,
      (value? auditCapacityVariable = some (.ofList (front ++ decimal n ++ back)) →
        (ofVariables value?).auditCapacity = max n 1) ∧
      (value? slowMillisVariable = some (.ofList (front ++ decimal n ++ back)) →
        (ofVariables value?).slowMillis = n) := by
  refine ⟨isReadFrom, ?_, ?_, ?_⟩
  · intro s n
    exact gives_some_iff
  · intro word n
    exact isWord_iff_zeros
  · intro front back n hfront hback hn value?
    have hgives := gives_decimal hfront hback hn
    refine ⟨?_, ?_⟩
    · intro h
      exact (isReadFrom value?).capacity n (h ▸ hgives)
    · intro h
      exact (isReadFrom value?).threshold n (h ▸ hgives)

/-- Seven with a sign and zeros, and the largest number between two blanks. -/
theorem largest_is_read :
    let value? : String → Option String := fun name =>
      if name = auditCapacityVariable then some "\u00a0+007\n"
      else if name = slowMillisVariable then some "\t18446744073709551615\u3000" else none
    Gives (value? auditCapacityVariable) 7 ∧ (ofVariables value?).auditCapacity = max 7 1 ∧
      AllBlank ['\t'] ∧ AllBlank ['\u3000'] ∧ maxWord < twoTo 64 ∧
      value? slowMillisVariable = some (.ofList (['\t'] ++ decimal maxWord ++ ['\u3000'])) ∧
      (ofVariables value?).slowMillis = maxWord := by
  intro value?
  obtain ⟨hread, htrimmed, hwords, hback⟩ := variables_are_read
  have hseven : Gives (value? auditCapacityVariable) 7 :=
    (htrimmed _ 7).2 ((hwords _ 7).2 ⟨by decide, 2, .inr (by decide)⟩)
  have hfront : AllBlank ['\t'] := by decide
  have hend : AllBlank ['\u3000'] := by decide
  have hlargest : maxWord < twoTo 64 := by decide
  have hset : value? slowMillisVariable =
      some (.ofList (['\t'] ++ decimal maxWord ++ ['\u3000'])) := by
    decide +kernel
  exact ⟨hseven, (hread value?).capacity 7 hseven, hfront, hend, hlargest, hset,
    (hback _ _ maxWord hfront hend hlargest value?).2 hset⟩

end PolicyBook.Config
