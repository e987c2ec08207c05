import PolicyBook.Transition
/-!
Tables of transition rules.

A table has at most one rule for a state and an action; every rule allows somebody and leads where
its action leads. These conditions belong to the type: `Table.ofRules` builds a table or says which
rule is at fault, and a list is a table exactly when no fault is found (`firstFault?_eq_none_iff`).
-/
namespace PolicyBook

open Policy

/-- A transition that may be made, and by whom. -/
structure Rule where
  source : State
  action : Action
  target : State
  allowed : RoleSet
  needsReason : Bool
  deriving DecidableEq, Repr

instance : JsonForm Rule where
  encode r := .obj [
    ("from", encode r.source),
    ("action", encode r.action),
    ("to", encode r.target),
    ("allowed_roles", encode r.allowed),
    ("reason_required", encode r.needsReason)]
  read? r := do
    let [source, action, target, allowed, needsReason] ←
      r.fields? ["from", "action", "to", "allowed_roles", "reason_required"] | none
    return {
      source := ← Json.required? source
      action := ← Json.required? action
      target := ← Json.required? target
      allowed := ← Json.required? allowed
      needsReason := ← Json.required? needsReason }

inductive RuleFault where
  | duplicate (source : State) (action : Action)
  | nobodyAllowed (source : State) (action : Action)
  | wrongTarget (source : State) (action : Action) (target : State)
  deriving DecidableEq, Repr

def RuleFault.message : RuleFault → String
  | duplicate source action =>
    s!"duplicate transition rule for {action.name} from {source.name}"
  | nobodyAllowed source action =>
    s!"transition rule {action.name} from {source.name} allows no roles"
  | wrongTarget source action target =>
    s!"transition rule {action.name} from {source.name} targets {target.name}, " ++
      s!"expected {action.target.name}"

namespace Rule

def key (r : Rule) : State × Action := (r.source, r.action)

/-- What is wrong with a rule behind others with the given keys; the first fault counts. -/
def fault? (r : Rule) (keys : List (State × Action)) : Option RuleFault :=
  if r.key ∈ keys then some (.duplicate r.source r.action)
  else if r.allowed.isEmpty then some (.nobodyAllowed r.source r.action)
  else if r.target ≠ r.action.target then some (.wrongTarget r.source r.action r.target)
  else none

/-- Whether a rule is in order by itself. -/
def IsSound (r : Rule) : Prop :=
  r.allowed.isEmpty = false ∧ r.target = r.action.target

instance (r : Rule) : Decidable r.IsSound :=
  inferInstanceAs (Decidable (_ ∧ _))

theorem fault?_eq_none_iff {r : Rule} {keys : List (State × Action)} :
    r.fault? keys = none ↔ r.key ∉ keys ∧ r.IsSound := by
  unfold fault? IsSound
  by_cases hk : r.key ∈ keys
  · simp [hk]
  · by_cases ha : r.allowed.isEmpty = true
    · simp [hk, ha]
    · by_cases ht : r.target = r.action.target <;> simp [hk, ha, ht]

end Rule

def firstFault? (keys : List (State × Action)) : List Rule → Option RuleFault
  | [] => none
  | r :: rs => (r.fault? keys).or (firstFault? (r.key :: keys) rs)

/-- A list of rules has no fault exactly when all keys differ and every rule is in order. -/
theorem firstFault?_eq_none_iff {keys : List (State × Action)} {rules : List Rule} :
    firstFault? keys rules = none ↔
      (∀ r ∈ rules, r.key ∉ keys) ∧ (rules.map Rule.key).Nodup ∧ ∀ r ∈ rules, r.IsSound := by
  induction rules generalizing keys with
  | nil => simp [firstFault?]
  | cons r rs ih =>
    simp only [firstFault?, Option.or_eq_none_iff, Rule.fault?_eq_none_iff, ih, List.mem_cons,
      forall_eq_or_imp, List.map_cons, List.nodup_cons, List.mem_map, not_or]
    constructor
    · rintro ⟨⟨hk, hr⟩, hrs, hnodup, hsound⟩
      refine ⟨⟨hk, fun x hx => (hrs x hx).2⟩, ⟨?_, hnodup⟩, hr, hsound⟩
      rintro ⟨x, hx, hkey⟩
      exact (hrs x hx).1 hkey
    · rintro ⟨⟨hk, hrs⟩, ⟨hne, hnodup⟩, hr, hsound⟩
      exact ⟨⟨hk, hr⟩, fun x hx => ⟨fun hkey => hne ⟨x, hx, hkey⟩, hrs x hx⟩, hnodup, hsound⟩

/-- Rules that belong together. -/
structure Table where
  /-- The rules in the order in which actions are offered. -/
  rules : List Rule
  distinct : (rules.map Rule.key).Nodup
  sound : ∀ r ∈ rules, r.IsSound
  deriving DecidableEq

namespace Table

def ofRules (rules : List Rule) : Except RuleFault Table :=
  match h : firstFault? [] rules with
  | some fault => .error fault
  | none =>
    have hrules := firstFault?_eq_none_iff.1 h
    .ok ⟨rules, hrules.2.1, hrules.2.2⟩

def rule? (table : Table) (source : State) (action : Action) : Option Rule :=
  table.rules.find? fun r => r.key = (source, action)

def rulesFrom (table : Table) (source : State) : List Rule :=
  table.rules.filter fun r => r.source = source

/-- The actions that some of the roles may ask for in a state. -/
def actions (table : Table) (source : State) (roles : RoleSet) : List Action :=
  ((table.rulesFrom source).filter fun r => r.allowed.meets roles).map Rule.action

def standardRules : List Rule :=
  let issuers := RoleSet.ofList [.agent, .underwriter, .admin]
  let renewers := RoleSet.ofList [.agent, .customer, .admin]
  let reinstaters := RoleSet.ofList [.agent, .admin]
  let expirers := RoleSet.ofList [.system, .admin]
  let cancellers := RoleSet.ofList [.agent, .admin]
  [⟨.draft, .issue, .active, issuers, false⟩,
    ⟨.draft, .cancel, .cancelled, cancellers, true⟩,
    ⟨.active, .renew, .renewed, renewers, false⟩,
    ⟨.active, .expire, .expired, expirers, false⟩,
    ⟨.active, .cancel, .cancelled, cancellers, true⟩,
    ⟨.renewed, .renew, .renewed, renewers, false⟩,
    ⟨.renewed, .expire, .expired, expirers, false⟩,
    ⟨.renewed, .cancel, .cancelled, cancellers, true⟩,
    ⟨.expired, .renew, .renewed, reinstaters, false⟩]

def standard : Table := ⟨standardRules, by decide, by decide⟩

/-- A line of the printed table: four columns and the rest. -/
def row (source action target reason roles : String) : String :=
  Text.column 10 source ++ " " ++ Text.column 8 action ++ " " ++ Text.column 10 target ++ " " ++
    Text.column 8 reason ++ " " ++ roles

def ruleRow (r : Rule) : String :=
  row r.source.name r.action.name r.target.name (if r.needsReason then "required" else "-")
    r.allowed.text

/-- The table as text: a heading, then a line for every rule. -/
def text (table : Table) : String :=
  "\n".intercalate (row "FROM" "ACTION" "TO" "REASON" "ROLES" :: table.rules.map ruleRow)

end Table

end PolicyBook
