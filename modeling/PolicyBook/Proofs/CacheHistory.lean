import Mathlib.Data.List.Induction
import PolicyBook.Cache
/-!
What a cache answers is told by the calls before.

A cache keeps values and generations apart: a value goes when its key is invalidated, a generation
stays and is counted on from nothing. The calls themselves tell what a cache should hold. The
generation of a key is the number of its invalidations; a value is kept if it was computed at this
number; and the value of a key is the last one that was kept and not invalidated since
(`Cache.IsCurrent`). Calls about other keys make no difference, so the story of each key can be told
alone.

* **`Cache.generation_after`** — the generation of a key after any calls;
* **`Cache.isCurrent_concat`**, **`Cache.get?_after`** — its value after any calls;
* **`Cache.agreeOn_after`** — a call about another key might as well not have been made;
* **`Cache.tellsHistory`** — what is answered after any calls.
-/
namespace PolicyBook.Cache

/-- The cache after calls, the first of them made to an empty cache. -/
def after (calls : List Call) : Cache := calls.foldl (fun cache call => (call.on cache).2) empty

def answer (past : List Call) (call : Call) : Answer := (call.on (after past)).1

def Call.invalidates (key : String) : Call → Bool
  | invalidate other => other = key
  | put .. | get _ | contains _ | generation _ | count _ => false

def invalidations (key : String) (calls : List Call) : Nat := calls.countP (Call.invalidates key)

/-- Behind others, a call gives a key a value that was computed at the generation of the key. -/
def Fills (past : List Call) (call : Call) (key : String) (value : Json) : Prop :=
  call = .put key value (invalidations key past)

/-- Calls have given a key a value, and none of them has given it another or invalidated it
since. -/
def IsCurrent (past : List Call) (key : String) (value : Json) : Prop :=
  ∃ before call behind, past = before ++ call :: behind ∧ Fills before call key value ∧
    (∀ later ∈ behind, later ≠ .invalidate key) ∧
      ∀ front later back, behind = front ++ later :: back →
        ∀ other, ¬Fills (before ++ call :: front) later key other

theorem after_concat (past : List Call) (call : Call) :
    after (past ++ [call]) = (call.on (after past)).2 := by
  rw [after, List.foldl_append]
  rfl

theorem invalidates_iff {key : String} {call : Call} :
    call.invalidates key = true ↔ call = .invalidate key := by
  cases call <;> simp [Call.invalidates]

theorem invalidations_concat (key : String) (past : List Call) (call : Call) :
    invalidations key (past ++ [call]) =
      invalidations key past + if call.invalidates key then 1 else 0 := by
  rw [invalidations, List.countP_append, List.countP_singleton]
  rfl

/-! ### Generations -/

theorem generation_after (key : String) (past : List Call) :
    (after past).generation key = invalidations key past := by
  induction past using List.reverseRecOn with
  | nil => rfl
  | append_singleton past call ih =>
    rw [after_concat, invalidations_concat, ← ih]
    cases call with
    | put other value observed => exact generation_put ..
    | get | contains | generation | count => rfl
    | invalidate other =>
      rw [Call.on, generation_invalidate, Call.invalidates]
      by_cases h : key = other
      · simp [h]
      · simp [h, Ne.symm h]

theorem admits_after_iff {key : String} {past : List Call} {observed : Nat} :
    (after past).admits key observed = true ↔ observed = invalidations key past := by
  rw [admits, beq_iff_eq, generation_after, eq_comm]

/-! ### Values -/

/-- After one more call a value is current if the call gives it, or if it was current and the call
neither gives another nor invalidates the key. -/
theorem isCurrent_concat {past : List Call} {call : Call} {key : String} {value : Json} :
    IsCurrent (past ++ [call]) key value ↔
      Fills past call key value ∨
        (∀ other, ¬Fills past call key other) ∧ call ≠ .invalidate key ∧
          IsCurrent past key value := by
  constructor
  · rintro ⟨before, filling, behind, heq, hfills, hvalid, hlast⟩
    rcases List.eq_nil_or_concat behind with rfl | ⟨behind, last, rfl⟩
    · obtain ⟨rfl, hcall⟩ := List.append_inj' heq rfl
      obtain rfl := List.singleton_inj.1 hcall
      exact .inl hfills
    · -- the last of the later calls is the new one
      rw [List.concat_eq_append, ← List.cons_append, ← List.append_assoc] at heq
      obtain ⟨rfl, hcall⟩ := List.append_inj' heq rfl
      obtain rfl := List.singleton_inj.1 hcall
      rw [List.concat_eq_append] at hvalid hlast
      refine .inr ⟨hlast behind call [] rfl, hvalid call (by simp), before, filling, behind, rfl,
        hfills, fun later hlater => hvalid later (List.mem_append_left _ hlater), ?_⟩
      rintro front later back rfl
      exact hlast front later (back ++ [call]) (by simp)
  · rintro (hfills | ⟨hnone, hvalid, before, filling, behind, rfl, hfills, hvalid', hlast⟩)
    · exact ⟨past, call, [], rfl, hfills, by simp, by simp⟩
    · refine ⟨before, filling, behind ++ [call], by simp, hfills, ?_, ?_⟩
      · intro later hlater
        rcases List.mem_append.1 hlater with hlater | hlater
        · exact hvalid' later hlater
        · rwa [List.mem_singleton.1 hlater]
      · intro front later back heq
        rcases List.eq_nil_or_concat back with rfl | ⟨back, last, rfl⟩
        · obtain ⟨rfl, hcall⟩ := List.append_inj' heq rfl
          obtain rfl := List.singleton_inj.1 hcall
          exact hnone
        · rw [List.concat_eq_append, ← List.cons_append, ← List.append_assoc] at heq
          exact hlast front later back (List.append_inj' heq rfl).1

theorem not_isCurrent_nil {key : String} {value : Json} : ¬IsCurrent [] key value := by
  rintro ⟨before, call, behind, heq, -⟩
  exact absurd heq (by simp)

theorem get?_on (past : List Call) (call : Call) (key : String) (value : Json) :
    (call.on (after past)).2.get? key = some value ↔
      Fills past call key value ∨
        (∀ other, ¬Fills past call key other) ∧ call ≠ .invalidate key ∧
          (after past).get? key = some value := by
  cases call with
  | put other v observed =>
    simp only [Call.on, get?_put, admits_after_iff, Fills, Call.put.injEq]
    by_cases hkey : key = other
    · subst hkey
      by_cases hadmits : observed = invalidations key past <;> simp [hadmits]
    · simp [hkey, Ne.symm hkey]
  | get | contains | generation | count => simp [Call.on, Fills]
  | invalidate other =>
    simp only [Call.on, get?_invalidate]
    by_cases hkey : key = other
    · simp [hkey, Fills]
    · simp [hkey, Ne.symm hkey, Fills]

theorem get?_after {past : List Call} {key : String} {value : Json} :
    (after past).get? key = some value ↔ IsCurrent past key value := by
  induction past using List.reverseRecOn generalizing value with
  | nil => simp [after, not_isCurrent_nil]
  | append_singleton past call ih => rw [after_concat, get?_on, isCurrent_concat, ih]

/-! ### Other keys -/

structure AgreeOn (key : String) (cache cache' : Cache) : Prop where
  value_eq : cache.get? key = cache'.get? key
  generation_eq : cache.generation key = cache'.generation key

section

variable {key : String} {cache cache' : Cache}

theorem AgreeOn.admits_eq (h : AgreeOn key cache cache') (observed : Nat) :
    cache.admits key observed = cache'.admits key observed := by
  rw [admits, admits, h.generation_eq]

theorem AgreeOn.answer_eq {call : Call} (h : AgreeOn call.key cache cache') :
    (call.on cache).1 = (call.on cache').1 := by
  cases call with
  | put key value observed => exact congrArg Answer.kept (h.admits_eq observed)
  | get key => exact congrArg Answer.value h.value_eq
  | contains key => exact congrArg (fun v => Answer.present v.isSome) h.value_eq
  | generation key | count key => exact congrArg Answer.number h.generation_eq
  | invalidate key => rfl

theorem AgreeOn.on (h : AgreeOn key cache cache') (call : Call) :
    AgreeOn key (call.on cache).2 (call.on cache').2 := by
  cases call with
  | put other value observed =>
    refine ⟨?_, by simpa [Call.on] using h.generation_eq⟩
    simp only [Call.on, get?_put, h.value_eq]
    by_cases hkey : key = other
    · subst hkey
      rw [h.admits_eq]
    · simp [hkey]
  | get | contains | generation | count => exact h
  | invalidate other =>
    constructor
    · simp only [Call.on, get?_invalidate, h.value_eq]
    · simp only [Call.on, generation_invalidate]
      by_cases hkey : key = other
      · subst hkey
        rw [h.generation_eq]
      · simp [hkey, h.generation_eq]

/-- A call about another key changes nothing under a key. -/
theorem agreeOn_on {call : Call} (h : call.key ≠ key) : AgreeOn key (call.on cache).2 cache := by
  cases call with
  | put other value observed =>
    exact ⟨(get?_put ..).trans (if_neg fun heq => h heq.2.symm), generation_put ..⟩
  | get | contains | generation | count => exact ⟨rfl, rfl⟩
  | invalidate other =>
    exact ⟨(get?_invalidate ..).trans (if_neg (Ne.symm h)),
      (generation_invalidate ..).trans (if_neg (Ne.symm h))⟩

end

theorem agreeOn_after {key : String} {call : Call} (h : call.key ≠ key)
    (before behind : List Call) :
    AgreeOn key (after (before ++ call :: behind)) (after (before ++ behind)) := by
  induction behind using List.reverseRecOn with
  | nil =>
    rw [after_concat, List.append_nil]
    exact agreeOn_on h
  | append_singleton behind last ih =>
    rw [← List.cons_append, ← List.append_assoc, ← List.append_assoc, after_concat, after_concat]
    exact ih.on last

/-! ### Answers -/

theorem invalidations_append (key : String) (before behind : List Call) :
    invalidations key (before ++ behind) = invalidations key before + invalidations key behind :=
  List.countP_append

theorem invalidations_eq_zero_iff {key : String} {calls : List Call} :
    invalidations key calls = 0 ↔ ∀ call ∈ calls, call ≠ .invalidate key := by
  simp only [invalidations, List.countP_eq_zero, invalidates_iff, ne_eq]

/-- What a cache answers after calls, told by the calls alone. -/
structure TellsHistory (past : List Call) : Prop where
  /-- The generation of a key is the number of its invalidations, however it is asked for. -/
  generation : ∀ key, answer past (.generation key) = .number (invalidations key past)
  count : ∀ key, answer past (.count key) = answer past (.generation key)
  /-- A value is kept if it was computed at this number, and only then. -/
  put : ∀ key value observed,
    answer past (.put key value observed) = .kept (decide (observed = invalidations key past))
  /-- Otherwise nothing changes. -/
  put_refused : ∀ key value observed, answer past (.put key value observed) = .kept false →
    after (past ++ [.put key value observed]) = after past
  /-- The value of a key is the last one that was kept, if the key was not invalidated since. -/
  get : ∀ key, ∃ found, answer past (.get key) = .value found ∧
    ∀ value, found = some value ↔ IsCurrent past key value
  /-- A key is said to have a value when it has one. -/
  contains : ∀ key, ∃ found, answer past (.get key) = .value found ∧
    answer past (.contains key) = .present found.isSome
  /-- Calls about other keys make no difference. -/
  apart : ∀ before call behind, past = before ++ call :: behind →
    ∀ next : Call, next.key ≠ call.key → answer past next = answer (before ++ behind) next
  /-- A value that was computed at a generation read earlier is kept exactly if the key was not
  invalidated in between. -/
  filled : ∀ before between key value observed, past = before ++ .generation key :: between →
    answer before (.generation key) = .number observed →
      (answer past (.put key value observed) = .kept true ↔
        ∀ call ∈ between, call ≠ .invalidate key)

theorem answer_put (past : List Call) (key : String) (value : Json) (observed : Nat) :
    answer past (.put key value observed) =
      .kept (decide (observed = invalidations key past)) := by
  refine congrArg Answer.kept (Bool.eq_iff_iff.2 ?_)
  rw [admits_after_iff, decide_eq_true_eq]

/-- Whatever calls were made to a cache, it answers what they tell. -/
theorem tellsHistory (past : List Call) : TellsHistory past where
  generation key := congrArg Answer.number (generation_after key past)
  count _ := rfl
  put := answer_put past
  put_refused key value observed h := by
    have hrefused : (after past).admits key observed = false := Answer.kept.inj h
    rw [after_concat]
    exact if_neg (by simp [hrefused])
  get key := ⟨_, rfl, fun _ => get?_after⟩
  contains key := ⟨_, rfl, rfl⟩
  apart before call behind heq next hkey := by
    subst heq
    exact (agreeOn_after (Ne.symm hkey) before behind).answer_eq
  filled before between key value observed heq hobserved := by
    subst heq
    -- reading the generation does not count, what follows does
    have hread : invalidations key (before ++ .generation key :: between) =
        observed + invalidations key between := by
      rw [← Answer.number.inj hobserved, generation_after, invalidations_append]
      rfl
    rw [answer_put, hread, Answer.kept.injEq, decide_eq_true_eq, Nat.left_eq_add,
      invalidations_eq_zero_iff]

/-- Figures that were computed before an invalidation are not kept after it; those that are computed
again are. -/
example (stale fresh : Json) :
    answer [.generation "dash", .invalidate "dash"] (.put "dash" stale 0) = .kept false ∧
    answer [.invalidate "dash", .put "dash" stale 0, .put "dash" fresh 1] (.get "dash") =
      .value (some fresh) := by
  exact ⟨rfl, rfl⟩

end PolicyBook.Cache
