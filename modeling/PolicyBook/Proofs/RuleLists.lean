import PolicyBook.Proofs.Guards
/-!
Which lists of rules are tables.

Rules are looked at one after another, each with the rules before it in mind, and looking stops at
the first rule with a fault; of the faults that one rule may have three are distinguished, and they
have an order too. Where no rule has a fault, no condition refers to the order of the rules, and
every rule is found under its state and its action wherever it stands. So rules in another order
make a table that answers every request in the same way.

* **`Rule.fault?_eq_some_iff`** — what is wrong with a rule behind others;
* **`firstFault?_eq_some_iff`** — the first rule with a fault, and its fault;
* **`Table.ofRules_eq_ok_iff`**, **`Table.exists_table_iff`** — which lists are tables;
* **`Table.agrees_of_perm`** — tables with the same rules in another order;
* **`Table.isJudged`** — all of this together, for every list of rules.
-/
namespace PolicyBook

open Policy

/-! ### Faults -/

/-- What is wrong with a rule behind others: it repeats the state and the action of one of them, or
else it allows nobody, or else it does not lead where its action leads. -/
inductive Rule.HasFault (before : List Rule) (r : Rule) : RuleFault → Prop where
  | duplicate {earlier : Rule} (mem : earlier ∈ before) (source : earlier.source = r.source)
      (action : earlier.action = r.action) : HasFault before r (.duplicate r.source r.action)
  | nobodyAllowed (new : ∀ earlier ∈ before,
        ¬(earlier.source = r.source ∧ earlier.action = r.action))
      (nobody : ∀ role, r.allowed.contains role = false) :
      HasFault before r (.nobodyAllowed r.source r.action)
  | wrongTarget (new : ∀ earlier ∈ before,
        ¬(earlier.source = r.source ∧ earlier.action = r.action))
      {somebody : Role} (allowed : r.allowed.contains somebody = true)
      (target : r.target ≠ r.action.target) :
      HasFault before r (.wrongTarget r.source r.action r.target)

/-- A fault of a list of rules: the first rule that has one has this one. -/
def IsFirstFault (rules : List Rule) (fault : RuleFault) : Prop :=
  ∃ before r behind, rules = before ++ r :: behind ∧ r.HasFault before fault ∧
    ∀ front s back, before = front ++ s :: back → ∀ other, ¬s.HasFault front other

namespace Rule

/-- The keys of rules, the last one first. -/
def keysOf (rules : List Rule) : List (State × Action) := (rules.map Rule.key).reverse

theorem keysOf_concat (rules : List Rule) (r : Rule) :
    keysOf (rules ++ [r]) = r.key :: keysOf rules := by
  rw [keysOf, List.map_append, List.reverse_append]
  rfl

theorem key_mem_keysOf_iff {r : Rule} {before : List Rule} :
    r.key ∈ keysOf before ↔
      ∃ earlier ∈ before, earlier.source = r.source ∧ earlier.action = r.action := by
  simp only [keysOf, List.mem_reverse, List.mem_map, key, Prod.mk.injEq]

theorem key_not_mem_keysOf_iff {r : Rule} {before : List Rule} :
    r.key ∉ keysOf before ↔
      ∀ earlier ∈ before, ¬(earlier.source = r.source ∧ earlier.action = r.action) := by
  rw [key_mem_keysOf_iff]
  push Not
  exact Iff.rfl

theorem isEmpty_iff {allowed : RoleSet} :
    allowed.isEmpty = true ↔ ∀ role, allowed.contains role = false := by
  rw [← Bool.not_eq_false, RoleSet.isEmpty_eq_false_iff]
  push Not
  simp only [ne_eq, Bool.not_eq_true]

theorem fault?_eq_some_iff {r : Rule} {before : List Rule} {fault : RuleFault} :
    r.fault? (keysOf before) = some fault ↔ r.HasFault before fault := by
  rw [fault?]
  constructor
  · intro h
    split at h
    · next hkey =>
      obtain rfl := Option.some_inj.1 h
      obtain ⟨earlier, hmem, hsource, haction⟩ := key_mem_keysOf_iff.1 hkey
      exact .duplicate hmem hsource haction
    · next hkey =>
      have hnew := key_not_mem_keysOf_iff.1 hkey
      split at h
      · next hempty =>
        obtain rfl := Option.some_inj.1 h
        exact .nobodyAllowed hnew (isEmpty_iff.1 hempty)
      · next hempty =>
        obtain ⟨somebody, hallowed⟩ :=
          RoleSet.isEmpty_eq_false_iff.1 (Bool.eq_false_iff.2 hempty)
        split at h
        · next htarget =>
          obtain rfl := Option.some_inj.1 h
          exact .wrongTarget hnew hallowed htarget
        · exact absurd h (by simp)
  · intro h
    cases h with
    | duplicate hmem hsource haction =>
      rw [if_pos (key_mem_keysOf_iff.2 ⟨_, hmem, hsource, haction⟩)]
    | nobodyAllowed hnew hnobody =>
      rw [if_neg (key_not_mem_keysOf_iff.2 hnew), if_pos (isEmpty_iff.2 hnobody)]
    | wrongTarget hnew hallowed htarget =>
      have hempty := RoleSet.isEmpty_eq_false_iff.2 ⟨_, hallowed⟩
      rw [if_neg (key_not_mem_keysOf_iff.2 hnew), if_neg (by simp [hempty]), if_pos htarget]

theorem fault?_eq_none_iff_not_hasFault {r : Rule} {before : List Rule} :
    r.fault? (keysOf before) = none ↔ ∀ fault, ¬r.HasFault before fault := by
  simp only [Option.eq_none_iff_forall_ne_some, ne_eq, fault?_eq_some_iff]

end Rule

open Rule

theorem firstFault?_eq_some_iff (done : List Rule) {rules : List Rule} {fault : RuleFault} :
    firstFault? (keysOf done) rules = some fault ↔
      ∃ before r behind, rules = before ++ r :: behind ∧ r.HasFault (done ++ before) fault ∧
        ∀ front s back, before = front ++ s :: back →
          ∀ other, ¬s.HasFault (done ++ front) other := by
  induction rules generalizing done with
  | nil => simp [firstFault?]
  | cons r rest ih =>
    rw [firstFault?, ← keysOf_concat, Option.or_eq_some_iff, fault?_eq_some_iff,
      fault?_eq_none_iff_not_hasFault, ih]
    simp only [List.append_assoc, List.singleton_append]
    constructor
    · rintro (hfault | ⟨hnone, before, s, behind, rfl, hfault, hbefore⟩)
      · exact ⟨[], r, rest, rfl, by rwa [List.append_nil], by simp⟩
      · refine ⟨r :: before, s, behind, rfl, hfault, fun front t back hsplit => ?_⟩
        cases front with
        | nil =>
          obtain ⟨rfl, -⟩ := List.cons.inj hsplit
          rwa [List.append_nil]
        | cons first front =>
          obtain ⟨rfl, hsplit'⟩ := List.cons.inj hsplit
          exact hbefore front t back hsplit'
    · rintro ⟨before, s, behind, hsplit, hfault, hbefore⟩
      cases before with
      | nil =>
        obtain ⟨rfl, -⟩ := List.cons.inj hsplit
        exact .inl (by rwa [List.append_nil] at hfault)
      | cons first before =>
        obtain ⟨rfl, hsplit'⟩ := List.cons.inj hsplit
        have hnone := hbefore [] r before rfl
        rw [List.append_nil] at hnone
        refine .inr ⟨hnone, before, s, behind, hsplit', hfault, fun front t back hfront => ?_⟩
        exact hbefore (r :: front) t back (congrArg _ hfront)

namespace Table

/-! ### Accepted lists -/

theorem ofRules_of_fault {rules : List Rule} {fault : RuleFault}
    (h : firstFault? [] rules = some fault) : ofRules rules = .error fault := by
  unfold ofRules
  split
  · next other hother =>
    rw [h] at hother
    rw [Option.some_inj.1 hother]
  · next hnone =>
    rw [h] at hnone
    exact absurd hnone (by simp)

theorem ofRules_eq_ok_iff {rules : List Rule} {table : Table} :
    ofRules rules = .ok table ↔ table.rules = rules := by
  constructor
  · intro h
    cases hfault : firstFault? [] rules with
    | some fault => exact absurd (h.symm.trans (ofRules_of_fault hfault)) (by simp)
    | none =>
      obtain ⟨-, hdistinct, hsound⟩ := firstFault?_eq_none_iff.1 hfault
      exact congrArg Table.rules (Except.ok.inj (h.symm.trans (ofRules_rules ⟨rules, hdistinct,
        hsound⟩)))
  · rintro rfl
    exact ofRules_rules table

theorem ofRules_eq_error_iff {rules : List Rule} {fault : RuleFault} :
    ofRules rules = .error fault ↔ IsFirstFault rules fault := by
  have hfirst : firstFault? [] rules = some fault ↔ IsFirstFault rules fault :=
    firstFault?_eq_some_iff []
  rw [← hfirst]
  refine ⟨fun h => ?_, ofRules_of_fault⟩
  cases hfault : firstFault? [] rules with
  | some other =>
    rw [ofRules_of_fault hfault] at h
    rw [Except.error.inj h]
  | none =>
    obtain ⟨-, hdistinct, hsound⟩ := firstFault?_eq_none_iff.1 hfault
    rw [ofRules_rules ⟨rules, hdistinct, hsound⟩] at h
    exact absurd h (by simp)

theorem exists_table_iff {rules : List Rule} :
    (∃ table, ofRules rules = .ok table) ↔
      (rules.map Rule.key).Nodup ∧ ∀ r ∈ rules, r.IsSound := by
  simp only [ofRules_eq_ok_iff]
  constructor
  · rintro ⟨table, rfl⟩
    exact ⟨table.distinct, table.sound⟩
  · rintro ⟨hdistinct, hsound⟩
    exact ⟨⟨rules, hdistinct, hsound⟩, rfl⟩

theorem nodup_map_key_iff {rules : List Rule} :
    (rules.map Rule.key).Nodup ↔
      rules.Pairwise fun r s => ¬(r.source = s.source ∧ r.action = s.action) := by
  rw [List.Nodup, List.pairwise_map]
  simp only [Rule.key, ne_eq, Prod.mk.injEq]

/-! ### Rules in another order -/

/-- Two tables answer every request in the same way and offer the same actions, if not in the same
order. -/
structure Agrees (table table' : Table) : Prop where
  transition_eq : ∀ source action roles reason now,
    table.transition source action roles reason now =
      table'.transition source action roles reason now
  rule?_eq : ∀ source action, table.rule? source action = table'.rule? source action
  actions_perm : ∀ source roles, (table.actions source roles).Perm (table'.actions source roles)

theorem agrees_of_perm {table table' : Table} (h : table.rules.Perm table'.rules) :
    table.Agrees table' := by
  have hrule (source : State) (action : Action) :
      table.rule? source action = table'.rule? source action :=
    Option.ext fun rule => by rw [rule?_eq_some_iff, rule?_eq_some_iff, h.mem_iff]
  constructor
  case transition_eq =>
    intro source action roles reason now
    rw [transition, transition, hrule]
  case rule?_eq => exact hrule
  case actions_perm =>
    intro source roles
    exact ((h.filter _).filter _).map _

/-- How a list of rules is judged. -/
structure IsJudged (rules : List Rule) : Prop where
  /-- It is a table if no two rules are for the same state and action, every rule allows somebody,
  and every rule leads where its action leads. -/
  accepted_iff : (∃ table, ofRules rules = .ok table) ↔
    (rules.Pairwise fun r s => ¬(r.source = s.source ∧ r.action = s.action)) ∧
      ∀ r ∈ rules, (∃ role, r.allowed.contains role = true) ∧ r.target = r.action.target
  /-- The table has these rules in this order. -/
  rules_eq : ∀ table, ofRules rules = .ok table → table.rules = rules
  /-- Otherwise the first rule with a fault is named, and its fault. -/
  refused_iff : ∀ fault, ofRules rules = .error fault ↔ IsFirstFault rules fault
  /-- In another order the rules are a table that agrees with this one. -/
  reordered : ∀ table rules', ofRules rules = .ok table → rules'.Perm rules →
    ∃ table', ofRules rules' = .ok table' ∧ table'.rules = rules' ∧ table'.Agrees table

/-- Every list of rules is judged by what its rules are, and accepted in every order or in none. -/
theorem isJudged (rules : List Rule) : IsJudged rules where
  accepted_iff := by
    rw [exists_table_iff, nodup_map_key_iff]
    simp only [Rule.IsSound, RoleSet.isEmpty_eq_false_iff]
  rules_eq _ := ofRules_eq_ok_iff.1
  refused_iff _ := ofRules_eq_error_iff
  reordered table rules' h hperm := by
    obtain ⟨hdistinct, hsound⟩ := exists_table_iff.1 ⟨table, h⟩
    have hrules := ofRules_eq_ok_iff.1 h
    let table' : Table := ⟨rules', ((hperm.map Rule.key).nodup_iff).2 hdistinct,
      fun r hr => hsound r (hperm.mem_iff.1 hr)⟩
    exact ⟨table', ofRules_rules table', rfl, agrees_of_perm (by rwa [hrules])⟩

/-- A rule that repeats another, allows nobody and does not lead where its action leads is found to
repeat another. -/
example :
    ofRules [⟨.draft, .issue, .active, .single .admin, false⟩,
      ⟨.draft, .issue, .expired, .empty, true⟩] = .error (.duplicate .draft .issue) := by
  rfl

end Table

end PolicyBook
