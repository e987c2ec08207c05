import Mathlib.Data.List.Nodup
import Mathlib.Order.Fin.Basic
import PolicyBook.Proofs.Lawful
/-!
The guards of a table.

A request passes three guards, in this order: there is a rule for it, the rule has the reason that
it needs, and the rule allows one of the actor's roles. What a table answers is settled by the first
guard that fails, or by the rule itself when none does. The actions that are offered are found
another way, by going through the rules of a state; the two agree because a state and an action have
one rule at most.

* **`Table.rule?_eq_some_iff`** — the rule that is looked up is the only one there is;
* **`Table.Answers`** — what is to be answered to a request, rule by rule;
* **`Table.transition_answers`**, **`Table.Answers.transition_eq`** — the table gives this answer,
  and no request has two;
* **`Table.mem_actions_iff`** — the actions that are offered are those that some rule lets through;
* **`Table.isGuarded`** — all of this together, for every table.
-/
namespace PolicyBook

open Policy

/-! ### Reasons -/

/-- Something is left of a reason without the blanks at its ends. -/
def HasReason (reason : Option String) : Prop := ∃ given ∈ reason, Text.trim given ≠ ""

theorem statedReason_eq_some_iff {reason : Option String} {s : String} :
    statedReason reason = some s ↔ ∃ given ∈ reason, Text.trim given = s ∧ s ≠ "" := by
  cases reason <;> simp [statedReason, Option.filter_eq_some_iff]

theorem statedReason_isSome_iff {reason : Option String} :
    (statedReason reason).isSome = true ↔ HasReason reason := by
  rw [Option.isSome_iff_exists]
  constructor
  · rintro ⟨s, hs⟩
    obtain ⟨given, hgiven, rfl, hne⟩ := statedReason_eq_some_iff.1 hs
    exact ⟨given, hgiven, hne⟩
  · rintro ⟨given, hgiven, hne⟩
    exact ⟨_, statedReason_eq_some_iff.2 ⟨given, hgiven, rfl, hne⟩⟩

theorem statedReason_eq_none_iff {reason : Option String} :
    statedReason reason = none ↔ ¬HasReason reason := by
  rw [← statedReason_isSome_iff, Bool.not_eq_true, Option.isSome_eq_false_iff,
    Option.isNone_iff_eq_none]

theorem reason_suffices_iff {needs : Bool} {reason : Option String} :
    (needs && (statedReason reason).isNone) = false ↔ (needs = true → HasReason reason) := by
  rw [← statedReason_isSome_iff, Bool.and_eq_false_imp, Option.isNone_eq_false_iff]

/-! ### Roles -/

namespace RoleSet

variable {s t : RoleSet} {actor : Role}

/-- A role is the first in the order of declaration that two sets share. -/
def IsFirstShared (s t : RoleSet) (actor : Role) : Prop :=
  s.contains actor = true ∧ t.contains actor = true ∧
    ∀ r, s.contains r = true → t.contains r = true → actor.index ≤ r.index

theorem first?_eq_none_iff : s.first? = none ↔ ∀ r, s.contains r = false := by
  rw [first?, List.head?_eq_none_iff, List.eq_nil_iff_forall_not_mem]
  simp only [mem_toList, Bool.not_eq_true]

theorem pairwise_index_all : Role.all.Pairwise fun r r' => r.index < r'.index := by decide

theorem index_le_of_first? (h : s.first? = some actor) {r : Role} (hr : s.contains r = true) :
    actor.index ≤ r.index := by
  have hordered : s.toList.Pairwise fun r r' => r.index < r'.index :=
    pairwise_index_all.sublist List.filter_sublist
  have hmem : r ∈ s.toList := mem_toList.2 hr
  obtain ⟨rest, hlist⟩ := List.head?_eq_some_iff.1 h
  rw [hlist] at hordered hmem
  rcases List.mem_cons.1 hmem with rfl | hrest
  · exact le_refl _
  · exact le_of_lt (List.rel_of_pairwise_cons hordered hrest)

theorem isFirstShared_of_first? (h : (s.inter t).first? = some actor) :
    s.IsFirstShared t actor := by
  have hactor := contains_of_first? h
  rw [contains_inter, Bool.and_eq_true] at hactor
  refine ⟨hactor.1, hactor.2, fun r hs ht => index_le_of_first? h ?_⟩
  rw [contains_inter, hs, ht]
  rfl

theorem IsFirstShared.unique {actor' : Role} (h : s.IsFirstShared t actor)
    (h' : s.IsFirstShared t actor') : actor = actor' :=
  Role.index_injective (le_antisymm (h.2.2 _ h'.1 h'.2.1) (h'.2.2 _ h.1 h.2.1))

theorem first?_inter_eq_none_iff :
    (s.inter t).first? = none ↔ ∀ r, s.contains r = true → t.contains r = false := by
  simp only [first?_eq_none_iff, contains_inter, Bool.and_eq_false_imp]

theorem exists_first?_inter {r : Role} (hs : s.contains r = true) (ht : t.contains r = true) :
    ∃ actor, (s.inter t).first? = some actor := by
  rw [← Option.ne_none_iff_exists']
  intro hnone
  rw [first?_inter_eq_none_iff.1 hnone r hs] at ht
  exact absurd ht (by simp)

theorem isEmpty_eq_false_iff : s.isEmpty = false ↔ ∃ r, s.contains r = true := by
  constructor
  · intro h
    refine Classical.byContradiction fun hnone => ?_
    have hempty : s = empty := ext fun r => by
      rw [contains_empty, ← Bool.not_eq_true]
      exact fun hr => hnone ⟨r, hr⟩
    rw [hempty] at h
    exact absurd h (by decide)
  · rintro ⟨r, hr⟩
    rw [isEmpty, beq_eq_false_iff_ne]
    rintro hbits
    have hempty : s = empty := congrArg RoleSet.mk hbits
    rw [hempty, contains_empty] at hr
    exact absurd hr (by simp)

theorem meets_iff : s.meets t = true ↔ ∃ r, s.contains r = true ∧ t.contains r = true := by
  rw [meets, Bool.not_eq_true', isEmpty_eq_false_iff]
  simp only [contains_inter, Bool.and_eq_true]

end RoleSet

/-! ### Rules -/

namespace Table

variable {table : Table} {source : State} {action : Action} {roles : RoleSet}
  {reason : Option String} {now : Instant}

theorem rule?_eq_some_iff {rule : Rule} :
    table.rule? source action = some rule ↔ rule ∈ table.rules ∧ rule.key = (source, action) := by
  constructor
  · intro h
    obtain ⟨hmem, rfl, rfl⟩ := rule?_eq_some h
    exact ⟨hmem, rfl⟩
  · rintro ⟨hmem, hkey⟩
    have hsome : (table.rule? source action).isSome = true :=
      List.find?_isSome.2 ⟨rule, hmem, by simpa using hkey⟩
    obtain ⟨other, hother⟩ := Option.isSome_iff_exists.1 hsome
    obtain ⟨hmem', hsource, haction⟩ := rule?_eq_some hother
    have hkey' : other.key = rule.key := by rw [hkey, Rule.key, hsource, haction]
    rw [hother, List.inj_on_of_nodup_map table.distinct hmem' hmem hkey']

theorem rule?_eq_none_iff :
    table.rule? source action = none ↔ ∀ rule ∈ table.rules, rule.key ≠ (source, action) := by
  rw [rule?, List.find?_eq_none]
  simp only [decide_eq_true_eq, ne_eq]

/-- What is to be answered to a request: the first guard that fails, or the transition of the rule
for it. -/
inductive Answers (table : Table) (source : State) (action : Action) (roles : RoleSet)
    (reason : Option String) (now : Instant) : Except Denial Transition → Prop where
  | undefined (none : ∀ rule ∈ table.rules, rule.key ≠ (source, action)) :
      Answers table source action roles reason now (.error (.undefined source action))
  | reasonMissing {rule : Rule} (mem : rule ∈ table.rules) (key : rule.key = (source, action))
      (needs : rule.needsReason = true) (blank : ¬HasReason reason) :
      Answers table source action roles reason now (.error (.reasonMissing source action))
  | notAllowed {rule : Rule} (mem : rule ∈ table.rules) (key : rule.key = (source, action))
      (stated : rule.needsReason = true → HasReason reason)
      (apart : ∀ r, roles.contains r = true → rule.allowed.contains r = false) :
      Answers table source action roles reason now
        (.error (.notAllowed source action roles rule.allowed))
  | made {rule : Rule} {t : Transition} (mem : rule ∈ table.rules)
      (key : rule.key = (source, action)) (stated : rule.needsReason = true → HasReason reason)
      (source_eq : t.source = source) (action_eq : t.action = action)
      (target_eq : t.target = rule.target ∧ t.target = action.target)
      (actor : roles.IsFirstShared rule.allowed t.actor)
      (reason_eq : ∀ s, t.reason = some s ↔ ∃ given ∈ reason, Text.trim given = s ∧ s ≠ "")
      (madeAt_eq : t.madeAt = now) : Answers table source action roles reason now (.ok t)

theorem transition_answers (table : Table) (source : State) (action : Action) (roles : RoleSet)
    (reason : Option String) (now : Instant) :
    table.Answers source action roles reason now
      (table.transition source action roles reason now) := by
  rw [transition]
  cases hrule : table.rule? source action with
  | none => exact .undefined (rule?_eq_none_iff.1 hrule)
  | some rule =>
    obtain ⟨hmem, hkey⟩ := rule?_eq_some_iff.1 hrule
    have haction : rule.action = action := (Prod.mk.inj hkey).2
    by_cases hmissing : (rule.needsReason && (statedReason reason).isNone) = true
    · obtain ⟨hneeds, hnone⟩ := Bool.and_eq_true_iff.1 hmissing
      rw [Option.isNone_iff_eq_none, statedReason_eq_none_iff] at hnone
      simp only [hmissing, if_true]
      exact .reasonMissing hmem hkey hneeds hnone
    · have hstated := reason_suffices_iff.1 (Bool.eq_false_iff.2 hmissing)
      simp only [hmissing, if_neg, Bool.false_eq_true, not_false_eq_true]
      cases hactor : (roles.inter rule.allowed).first? with
      | none => exact .notAllowed hmem hkey hstated (RoleSet.first?_inter_eq_none_iff.1 hactor)
      | some actor =>
        exact .made hmem hkey hstated rfl rfl ⟨rfl, haction ▸ (table.sound rule hmem).2⟩
          (RoleSet.isFirstShared_of_first? hactor) (fun _ => statedReason_eq_some_iff) rfl

theorem Answers.transition_eq {answer : Except Denial Transition}
    (h : table.Answers source action roles reason now answer) :
    table.transition source action roles reason now = answer := by
  rw [transition]
  cases h with
  | undefined hnone => rw [rule?_eq_none_iff.2 hnone]
  | reasonMissing hmem hkey hneeds hblank =>
    rw [rule?_eq_some_iff.2 ⟨hmem, hkey⟩]
    simp [hneeds, statedReason_eq_none_iff.2 hblank]
  | notAllowed hmem hkey hstated hapart =>
    rw [rule?_eq_some_iff.2 ⟨hmem, hkey⟩]
    simp [reason_suffices_iff.2 hstated, RoleSet.first?_inter_eq_none_iff.2 hapart]
  | made hmem hkey hstated hsource haction htarget hactor hreason hmadeAt =>
    rename_i rule t
    obtain ⟨actor, hfirst⟩ := RoleSet.exists_first?_inter hactor.1 hactor.2.1
    have hsame : actor = t.actor := (RoleSet.isFirstShared_of_first? hfirst).unique hactor
    have hstatedReason : statedReason reason = t.reason :=
      Option.ext fun s => statedReason_eq_some_iff.trans (hreason s).symm
    rw [rule?_eq_some_iff.2 ⟨hmem, hkey⟩]
    simp only [reason_suffices_iff.2 hstated, hfirst, Bool.false_eq_true, if_false]
    rw [hsame, hstatedReason, ← htarget.1, ← hsource, ← haction, ← hmadeAt]

theorem transition_eq_iff {answer : Except Denial Transition} :
    table.transition source action roles reason now = answer ↔
      table.Answers source action roles reason now answer :=
  ⟨fun h => h ▸ table.transition_answers source action roles reason now, Answers.transition_eq⟩

theorem exists_transition_iff :
    (∃ t, table.transition source action roles reason now = .ok t) ↔
      ∃ rule ∈ table.rules, rule.key = (source, action) ∧
        (rule.needsReason = true → HasReason reason) ∧
          ∃ r, roles.contains r = true ∧ rule.allowed.contains r = true := by
  constructor
  · rintro ⟨t, ht⟩
    cases transition_eq_iff.1 ht with
    | made hmem hkey hstated _ _ _ hactor =>
      exact ⟨_, hmem, hkey, hstated, t.actor, hactor.1, hactor.2.1⟩
  · rintro ⟨rule, hmem, hkey, hstated, r, hroles, hallowed⟩
    obtain ⟨actor, hfirst⟩ := RoleSet.exists_first?_inter hroles hallowed
    rw [transition, rule?_eq_some_iff.2 ⟨hmem, hkey⟩]
    simp [reason_suffices_iff.2 hstated, hfirst]

/-! ### Actions on offer -/

theorem mem_actions_iff :
    action ∈ table.actions source roles ↔
      ∃ rule ∈ table.rules, rule.key = (source, action) ∧
        ∃ r, roles.contains r = true ∧ rule.allowed.contains r = true := by
  simp only [actions, rulesFrom, List.mem_map, List.mem_filter, RoleSet.meets_iff,
    decide_eq_true_eq, Rule.key, Prod.mk.injEq]
  constructor
  · rintro ⟨rule, ⟨⟨hmem, hsource⟩, r, hallowed, hroles⟩, haction⟩
    exact ⟨rule, hmem, ⟨hsource, haction⟩, r, hroles, hallowed⟩
  · rintro ⟨rule, hmem, ⟨hsource, haction⟩, r, hroles, hallowed⟩
    exact ⟨rule, ⟨⟨hmem, hsource⟩, r, hallowed, hroles⟩, haction⟩

/-- With a reason, whichever it is, just the actions on offer are let through. -/
theorem mem_actions_iff_transition (h : HasReason reason) :
    action ∈ table.actions source roles ↔
      ∃ t, table.transition source action roles reason now = .ok t := by
  rw [mem_actions_iff, exists_transition_iff]
  simp only [h, implies_true, true_and]

theorem nodup_map_action (table : Table) (source : State) :
    ((table.rulesFrom source).map Rule.action).Nodup := by
  have hkeys : ((table.rulesFrom source).map Rule.key).Nodup :=
    table.distinct.sublist (List.filter_sublist.map Rule.key)
  have hmap : (table.rulesFrom source).map Rule.key =
      ((table.rulesFrom source).map Rule.action).map fun action => (source, action) := by
    rw [List.map_map]
    refine List.map_congr_left fun rule hrule => ?_
    have hsource : rule.source = source := by simpa using (List.mem_filter.1 hrule).2
    exact Prod.ext hsource rfl
  rw [hmap] at hkeys
  exact hkeys.of_map _

theorem actions_sublist (table : Table) (source : State) (roles : RoleSet) :
    (table.actions source roles).Sublist ((table.rulesFrom source).map Rule.action) :=
  List.filter_sublist.map Rule.action

theorem actions_sublist_of_le {roles' : RoleSet}
    (h : ∀ r, roles.contains r = true → roles'.contains r = true) :
    (table.actions source roles).Sublist (table.actions source roles') := by
  refine (List.monotone_filter_right _ fun rule hrule => ?_).map Rule.action
  obtain ⟨r, hallowed, hroles⟩ := RoleSet.meets_iff.1 hrule
  exact RoleSet.meets_iff.2 ⟨r, hallowed, h r hroles⟩

theorem ofRules_rules (table : Table) : ofRules table.rules = .ok table := by
  have hnone : firstFault? [] table.rules = none :=
    firstFault?_eq_none_iff.2 ⟨fun _ _ => List.not_mem_nil, table.distinct, table.sound⟩
  unfold ofRules
  split
  · next hfault =>
    rw [hnone] at hfault
    exact absurd hfault (by simp)
  · rfl

/-- What holds of the requests to a table and of the actions that it offers. -/
structure IsGuarded (table : Table) : Prop where
  /-- The rules of the table are accepted, and make this table. -/
  accepted : ofRules table.rules = .ok table
  /-- A request is let through exactly when there is a rule for it that has the reason that it needs
  and allows one of the roles. -/
  lets : ∀ source action roles reason now,
    (∃ t, table.transition source action roles reason now = .ok t) ↔
      ∃ rule ∈ table.rules, rule.key = (source, action) ∧
        (rule.needsReason = true → HasReason reason) ∧
          ∃ r, roles.contains r = true ∧ rule.allowed.contains r = true
  /-- The answer to a request is the one that the rules demand, and no other. -/
  answers : ∀ source action roles reason now answer,
    table.transition source action roles reason now = answer ↔
      table.Answers source action roles reason now answer
  /-- An action is on offer exactly when it is let through with some reason. -/
  offers_some : ∀ source action roles now, action ∈ table.actions source roles ↔
    ∃ reason t, HasReason reason ∧ table.transition source action roles reason now = .ok t
  /-- Then it is let through with every reason, and at every time. -/
  offers_every : ∀ source action roles reason now, HasReason reason →
    (action ∈ table.actions source roles ↔
      ∃ t, table.transition source action roles reason now = .ok t)
  /-- No action is offered twice. -/
  once : ∀ source roles, (table.actions source roles).Nodup
  /-- Actions are offered in the order of the rules. -/
  inOrder : ∀ source roles, (table.actions source roles).Sublist
    ((table.rules.filter fun r => r.source = source).map Rule.action)
  /-- Whoever has more roles has no fewer actions. -/
  grows : ∀ source roles roles', (∀ r, roles.contains r = true → roles'.contains r = true) →
    (table.actions source roles).Sublist (table.actions source roles')

/-- Whatever its rules are, a table guards them. -/
theorem isGuarded (table : Table) : table.IsGuarded where
  accepted := table.ofRules_rules
  lets _ _ _ _ _ := exists_transition_iff
  answers _ _ _ _ _ _ := transition_eq_iff
  offers_some source action roles now := by
    constructor
    · intro h
      have hreason : HasReason (some "requested") := ⟨_, rfl, by decide⟩
      obtain ⟨t, ht⟩ := (mem_actions_iff_transition hreason).1 h
      exact ⟨_, t, hreason, ht⟩
    · rintro ⟨reason, t, hreason, ht⟩
      exact (mem_actions_iff_transition hreason).2 ⟨t, ht⟩
  offers_every _ _ _ _ _ hreason := mem_actions_iff_transition hreason
  once source roles := (table.nodup_map_action source).sublist (table.actions_sublist source roles)
  inOrder := table.actions_sublist
  grows _ _ _ := actions_sublist_of_le

end Table

end PolicyBook
