import PolicyBook.Transition.Denial
/-!
Lawful transitions.

A transition is lawful in a table when a rule stands behind it: the rule leads where it leads,
allows the actor, and has the reason that it needs. Reasons are recorded trimmed, and a blank one is
not recorded.

* **`Table.lawful_of_transition`** — what the table lets through is lawful, and is what was asked
  for;
* **`Table.transition_ne_ok_of_rulesFrom`** — nothing leads out of a state that has no rules.
-/
namespace PolicyBook

open Policy

/-! ### Trimming -/

namespace Text

theorem head?_trimmedStart {cs : List Char} {c : Char} (h : (trimmedStart cs).head? = some c) :
    isBlank c = false := by
  have := List.head?_dropWhile_not isBlank cs
  rw [← trimmedStart, h] at this
  simpa using this

theorem trimmedStart_trimmedStart (cs : List Char) :
    trimmedStart (trimmedStart cs) = trimmedStart cs :=
  trimmedStart_eq_self_iff.2 fun _ hc => head?_trimmedStart hc

theorem trimmedEnd_trimmedEnd (cs : List Char) : trimmedEnd (trimmedEnd cs) = trimmedEnd cs := by
  show (trimmedStart (trimmedStart cs.reverse).reverse.reverse).reverse = _
  rw [List.reverse_reverse, trimmedStart_trimmedStart]
  rfl

theorem trimmedEnd_prefix (cs : List Char) : trimmedEnd cs <+: cs := by
  have := (List.dropWhile_suffix (l := cs.reverse) isBlank)
  rwa [← List.reverse_prefix, List.reverse_reverse] at this

theorem trimmed_trimmed (cs : List Char) : trimmed (trimmed cs) = trimmed cs := by
  -- trimming the back leaves the front alone, so there is nothing blank in front either
  have hstart : trimmedStart (trimmed cs) = trimmed cs := by
    refine trimmedStart_eq_self_iff.2 fun c hc => ?_
    obtain ⟨rest, hrest⟩ := trimmedEnd_prefix (trimmedStart cs)
    have hfront : (trimmedStart cs).head? = some c := by
      rw [← hrest, List.head?_append]
      show ((trimmed cs).head?.or _) = _
      rw [Option.mem_def.1 hc]
      rfl
    exact head?_trimmedStart hfront
  rw [trimmed, hstart]
  exact trimmedEnd_trimmedEnd _

theorem trim_trim (s : String) : trim (trim s) = trim s := by
  rw [trim, trim, String.toList_ofList, trimmed_trimmed]

end Text

/-! ### Transitions -/

/-- A reason that is recorded is not blank and has no blanks at its ends. -/
theorem mem_statedReason {reason : Option String} {s : String} (h : s ∈ statedReason reason) :
    s ≠ "" ∧ Text.trim s = s := by
  obtain ⟨hmap, hne⟩ := Option.filter_eq_some_iff.1 (Option.mem_def.1 h)
  obtain ⟨given, -, rfl⟩ := Option.map_eq_some_iff.1 hmap
  exact ⟨by simpa using hne, Text.trim_trim given⟩

/-- A rule of the table stands behind a transition. -/
structure Transition.IsLawful (table : Table) (t : Transition) : Prop where
  /-- The rule allows the actor and has the reason that it needs. -/
  rule : ∃ rule ∈ table.rules, rule.source = t.source ∧ rule.action = t.action ∧
    rule.target = t.target ∧ rule.allowed.contains t.actor = true ∧
    (rule.needsReason = true → t.reason.isSome = true)
  reason : ∀ s ∈ t.reason, s ≠ "" ∧ Text.trim s = s

theorem RoleSet.contains_of_first? {s : RoleSet} {actor : Role} (h : s.first? = some actor) :
    s.contains actor = true :=
  mem_toList.1 (List.mem_of_head? h)

namespace Table

variable {table : Table} {source : State} {action : Action} {roles : RoleSet}
  {reason : Option String} {now : Instant}

theorem rule?_eq_some {rule : Rule} (h : table.rule? source action = some rule) :
    rule ∈ table.rules ∧ rule.source = source ∧ rule.action = action := by
  have hkey : rule.key = (source, action) := by
    have := List.find?_some h
    simpa using this
  exact ⟨List.mem_of_find?_eq_some h, (Prod.mk.inj hkey).1, (Prod.mk.inj hkey).2⟩

/-- What the table lets through is lawful, and is what was asked for. -/
theorem lawful_of_transition {t : Transition}
    (h : table.transition source action roles reason now = .ok t) :
    t.IsLawful table ∧ t.source = source ∧ t.action = action ∧ t.madeAt = now ∧
      roles.contains t.actor = true ∧ t.reason = statedReason reason := by
  -- no rule, no reason and no actor are the ways to be refused
  unfold transition at h
  cases hrule : table.rule? source action with
  | none =>
    rw [hrule] at h
    exact absurd h (by simp)
  | some rule =>
    obtain ⟨hmem, hsource, haction⟩ := rule?_eq_some hrule
    simp only [hrule] at h
    split at h
    · exact absurd h (by simp)
    · next hneeds =>
      split at h
      · exact absurd h (by simp)
      · next actor hactor =>
        have hcontains := RoleSet.contains_of_first? hactor
        rw [RoleSet.contains_inter, Bool.and_eq_true] at hcontains
        obtain rfl := Except.ok.inj h
        have hreason : rule.needsReason = true → (statedReason reason).isSome = true := by
          intro hneed
          rw [hneed, Bool.true_and, Bool.not_eq_true, Option.isNone_eq_false_iff] at hneeds
          exact hneeds
        exact ⟨⟨⟨rule, hmem, hsource, haction, rfl, hcontains.2, hreason⟩,
          fun s hs => mem_statedReason hs⟩, rfl, rfl, rfl, hcontains.1, rfl⟩

/-- Nothing leads out of a state that has no rules. -/
theorem transition_ne_ok_of_rulesFrom {t : Transition} (hnone : table.rulesFrom source = []) :
    table.transition source action roles reason now ≠ .ok t := by
  intro h
  obtain ⟨⟨⟨rule, hmem, hsource, -⟩, -⟩, rfl, -⟩ := lawful_of_transition h
  have : rule ∈ table.rulesFrom t.source := List.mem_filter.2 ⟨hmem, by simpa using hsource⟩
  rw [hnone] at this
  exact absurd this (by simp)

/-- In the standard table only cancelled policies stay as they are for good. -/
theorem rulesFrom_standard_eq_nil_iff {s : State} : standard.rulesFrom s = [] ↔ s = .cancelled := by
  cases s <;> decide

end Table

theorem Policy.Action.target_ne_draft (a : Action) : a.target ≠ .draft := by
  cases a <;> decide

theorem Transition.IsLawful.target_ne_draft {table : Table} {t : Transition}
    (h : t.IsLawful table) : t.target ≠ .draft := by
  obtain ⟨⟨rule, hmem, -, -, htarget, -⟩, -⟩ := h
  rw [← htarget, (table.sound rule hmem).2]
  exact Action.target_ne_draft rule.action

end PolicyBook
