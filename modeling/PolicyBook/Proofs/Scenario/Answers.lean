import PolicyBook.Proofs.RoleNames
import PolicyBook.Proofs.Scenario.Following
/-!
The outcomes of steps.

What a step comes to can be told from the outcomes that were reported before it: they say how far
its policy has got, and from there the table is asked. A step that is not made says why, by a code;
which code that is depends on the step alone, until the table is asked.

* **`Step.IsAnswered.of_answer`** — which codes a step can have, and when;
* **`Outcome.isEither`** — in JSON an outcome has a state and a version, or it has an error.
-/
namespace PolicyBook

open Policy

namespace Scenario

/-! ### What a step is answered -/

def Outcome.failure? (o : Outcome) : Option StepFailure :=
  match o.result with
  | .ok _ => none
  | .error failure => some failure

def Outcome.code? (o : Outcome) : Option String := o.failure?.map StepFailure.code

/-- How far a policy has got, as it was reported last. -/
def reached (key : String) (outcomes : List Outcome) : Progress :=
  (progressOn key outcomes).getLast?.getD ⟨.draft, 0⟩

/-- What a step comes to behind these outcomes: the table is asked from the state that was reported
last, and the version goes up by one. -/
def Step.answer (table : Table) (declared : List String) (before : List Outcome) (now : Instant)
    (s : Step) : Except StepFailure Progress :=
  if s.policy ∈ declared then
    (s.judge table (reached s.policy before).state now).map fun t =>
      ⟨t.target, (reached s.policy before).version + 1⟩
  else .error (.undeclared s.policy)

/-- The outcome of a step is of the right kind. -/
structure Step.IsAnswered (declared : List String) (s : Step) (o : Outcome) : Prop where
  /-- The policy is not found exactly when its key was not declared. -/
  notFound : o.code? = some "NOT_FOUND" ↔ s.policy ∉ declared
  /-- A step on a declared policy is invalid exactly when the action or one of the roles cannot be
  read. -/
  invalid : o.code? = some "VALIDATION_ERROR" ↔ s.policy ∈ declared ∧
    ((∃ refusal, Action.parse s.action = .error refusal) ∨
      ∃ name ∈ s.roles, ∃ refusal, Role.parse name = .error refusal)
  /-- The action is reported first. -/
  action_first : s.policy ∈ declared → ∀ refusal, Action.parse s.action = .error refusal →
    o.result = .error (.unreadable refusal)
  /-- Otherwise the first role is reported that cannot be read. -/
  role_next : s.policy ∈ declared → (∃ action, Action.parse s.action = .ok action) →
    ∀ first name rest refusal, s.roles = first ++ name :: rest → RoleSet.AreNames first →
      Role.parse name = .error refusal → o.result = .error (.unreadable refusal)
  /-- All other failures are those of the table. -/
  otherwise : ∀ code, o.code? = some code → code ∈ ["NOT_FOUND", "VALIDATION_ERROR",
    "ILLEGAL_TRANSITION", "MISSING_REASON", "UNAUTHORIZED"]

theorem Outcome.code?_of_ok {o : Outcome} {progress : Progress} (h : o.result = .ok progress) :
    o.code? = none := by
  rw [code?, failure?, h]
  rfl

theorem Outcome.code?_of_error {o : Outcome} {failure : StepFailure}
    (h : o.result = .error failure) : o.code? = some failure.code := by
  rw [code?, failure?, h]
  rfl

theorem Outcome.code?_of_judged {o : Outcome} {judged : Except Denial Transition}
    {f : Transition → Progress}
    (h : o.result = (judged.mapError fun denial => StepFailure.refused (.denied denial)).map f) :
    ∀ code, o.code? = some code →
      code ∈ ["ILLEGAL_TRANSITION", "MISSING_REASON", "UNAUTHORIZED"] := by
  intro code hcode
  cases judged with
  | ok t =>
    rw [code?_of_ok h] at hcode
    exact absurd hcode (by simp)
  | error denial =>
    rw [code?_of_error h] at hcode
    obtain rfl := Option.some_inj.1 hcode
    cases denial with
    | undefined => exact List.mem_cons_self
    | reasonMissing => exact List.mem_cons_of_mem _ List.mem_cons_self
    | notAllowed => exact List.mem_cons_of_mem _ (List.mem_cons_of_mem _ List.mem_cons_self)

namespace Step.IsAnswered

variable {declared : List String} {s : Step} {o : Outcome}

theorem of_undeclared (hkey : s.policy ∉ declared) (h : o.result = .error (.undeclared s.policy)) :
    s.IsAnswered declared o := by
  have hcode : o.code? = some "NOT_FOUND" := Outcome.code?_of_error h
  constructor <;> simp [hcode, hkey]

theorem of_action {refusal : Refusal} (hkey : s.policy ∈ declared)
    (haction : Action.parse s.action = .error refusal)
    (h : o.result = .error (.unreadable refusal)) : s.IsAnswered declared o := by
  have hcode : o.code? = some "VALIDATION_ERROR" := Outcome.code?_of_error h
  constructor
  case notFound => simp [hcode, hkey]
  case invalid => simp [hcode, hkey, haction]
  case action_first =>
    intro _ other hother
    rw [Except.error.inj (haction.symm.trans hother)] at h
    exact h
  case role_next => simp [haction]
  case otherwise => simp [hcode]

theorem of_role {action : Action} {refusal : Refusal} (hkey : s.policy ∈ declared)
    (haction : Action.parse s.action = .ok action)
    (hroles : RoleSet.parseNames s.roles = .error refusal)
    (h : o.result = .error (.unreadable refusal)) : s.IsAnswered declared o := by
  have hcode : o.code? = some "VALIDATION_ERROR" := Outcome.code?_of_error h
  constructor
  case notFound => simp [hcode, hkey]
  case invalid =>
    have hbad : ∃ name ∈ s.roles, ∃ refusal, Role.parse name = .error refusal := by
      rcases RoleSet.parseNames_cases s.roles with ⟨-, roles, hok⟩ |
        ⟨first, name, rest, other, heq, -, hname, -⟩
      · exact absurd (hroles.symm.trans hok) (by simp)
      · exact ⟨name, by simp [heq], other, hname⟩
    exact ⟨fun _ => ⟨hkey, .inr hbad⟩, fun _ => hcode⟩
  case action_first => simp [haction]
  case role_next =>
    intro _ _ first name rest other heq hfirst hname
    have hrefused : RoleSet.parseNames (first ++ name :: rest) = .error other :=
      RoleSet.parseNames_eq_error hfirst hname
    rw [← heq, hroles] at hrefused
    rw [Except.error.inj hrefused] at h
    exact h
  case otherwise => simp [hcode]

theorem of_table {action : Action} {roles : RoleSet} {judged : Except Denial Transition}
    {f : Transition → Progress} (hkey : s.policy ∈ declared)
    (haction : Action.parse s.action = .ok action)
    (hroles : RoleSet.parseNames s.roles = .ok roles)
    (h : o.result = (judged.mapError fun denial => StepFailure.refused (.denied denial)).map f) :
    s.IsAnswered declared o := by
  have hcode := Outcome.code?_of_judged h
  -- action and roles were read, so only the codes of the table remain
  have hread : ∀ name ∈ s.roles, ∀ refusal, Role.parse name ≠ .error refusal := by
    intro name hmem refusal hname
    rcases RoleSet.parseNames_cases s.roles with ⟨hall, -⟩ | ⟨_, _, _, _, -, -, -, herror⟩
    · obtain ⟨role, hrole⟩ := hall name hmem
      exact absurd (hrole.symm.trans hname) (by simp)
    · exact absurd (hroles.symm.trans herror) (by simp)
  constructor
  case notFound =>
    constructor
    · intro hnot
      exact absurd (hcode _ hnot) (by simp)
    · intro hnot
      exact absurd hkey hnot
  case invalid =>
    constructor
    · intro hinvalid
      exact absurd (hcode _ hinvalid) (by simp)
    · rintro ⟨-, ⟨refusal, herror⟩ | ⟨name, hmem, refusal, herror⟩⟩
      · exact absurd (haction.symm.trans herror) (by simp)
      · exact absurd herror (hread name hmem refusal)
  case action_first => simp [haction]
  case role_next =>
    intro _ _ first name rest refusal heq _ herror
    exact absurd herror (hread name (by simp [heq]) refusal)
  case otherwise =>
    intro code h
    exact List.mem_cons_of_mem _ (List.mem_cons_of_mem _ (hcode code h))

theorem of_answer {table : Table} {before : List Outcome} {now : Instant}
    (h : o.result = s.answer table declared before now) : s.IsAnswered declared o := by
  by_cases hkey : s.policy ∈ declared
  · rw [answer, if_pos hkey] at h
    rcases judge_cases table (reached s.policy before).state now s with
      ⟨refusal, haction, hjudge⟩ | ⟨action, refusal, haction, hroles, hjudge⟩ |
      ⟨action, roles, haction, hroles, hjudge⟩
    · rw [hjudge] at h
      exact of_action hkey haction h
    · rw [hjudge] at h
      exact of_role hkey haction hroles h
    · rw [hjudge] at h
      exact of_table hkey haction hroles h
  · rw [answer, if_neg hkey] at h
    exact of_undeclared hkey h

end Step.IsAnswered

/-! ### The JSON form -/

/-- In JSON an outcome has a state and a version, or it has an error. -/
structure Outcome.IsEither (o : Outcome) : Prop where
  either : o.progress?.isSome = !o.failure?.isSome
  state : o.json.member? "state" = o.progress?.map fun progress => encode progress.state
  version : o.json.member? "version" = o.progress?.map fun progress => encode progress.version
  error : o.json.member? "error" = o.failure?.map fun failure =>
    .obj [("code", .str failure.code), ("message", .str failure.message)]

theorem Outcome.isEither (o : Outcome) : o.IsEither := by
  obtain ⟨index, policy, action, result⟩ := o
  cases result <;> exact ⟨rfl, rfl, rfl, rfl⟩

end Scenario

end PolicyBook
