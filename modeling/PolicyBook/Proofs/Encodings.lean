import PolicyBook.Event
import PolicyBook.Proofs.Identifiers
import PolicyBook.Proofs.Instants
import PolicyBook.Proofs.Json.Normal
/-!
What is written as JSON can be told apart by its meaning.

A form is faithful when values whose forms have one meaning are equal, whatever became of the order
of members, and when it holds no floating-point number. Everything that events are made of has such
a form:

* **`Json.member_eq`** — objects of one meaning have members of one meaning;
* **`IsFaithful.of_text`** — a form that is a text is faithful when texts differ;
* **`Event.isFaithful_payload`** — what events tell is written faithfully.
-/
namespace PolicyBook

open Policy

/-- Values whose forms have one meaning are equal, and no form holds a floating-point number. -/
structure IsFaithful {α : Type} (form : α → Json) : Prop where
  injective : ∀ x y, (form x).normal = (form y).normal → x = y
  exact : ∀ x, (form x).firstFloat? = none

namespace Json

theorem member_eq {members members' : List (String × Json)}
    (h : (Json.obj members).normal = (Json.obj members').normal) (name : String) {v w : Json}
    (hv : members.reverse.lookup name = some v) (hw : members'.reverse.lookup name = some w) :
    v.normal = w.normal := by
  have := lookup_of_normal_eq h name
  rw [hv, hw] at this
  exact Option.some_inj.1 this

theorem not_member {members members' : List (String × Json)}
    (h : (Json.obj members).normal = (Json.obj members').normal) (name : String) {v : Json}
    (hv : members.reverse.lookup name = some v) (hw : members'.reverse.lookup name = none) :
    False := by
  have := lookup_of_normal_eq h name
  rw [hv, hw] at this
  exact Option.some_ne_none _ this

theorem exact_obj {members : List (String × Json)} (h : ∀ m ∈ members, m.2.firstFloat? = none) :
    (Json.obj members).firstFloat? = none := by
  rw [firstFloat?, firstFloatOfMembers?_eq_none_iff]
  exact h

end Json

namespace IsFaithful

theorem of_text {α : Type} {text : α → String} (h : ∀ x y, text x = text y → x = y) :
    IsFaithful fun x => Json.str (text x) where
  injective x y hxy := h x y (Json.str.inj hxy)
  exact _ := rfl

theorem of_name {α : Type} {name : α → String} {ofName? : String → Option α}
    (h : ∀ x, ofName? (name x) = some x) : IsFaithful fun x => Json.str (name x) := by
  refine of_text fun x y hxy => ?_
  have hx := h x
  rw [hxy, h y] at hx
  exact (Option.some_inj.1 hx).symm

theorem state : IsFaithful (encode : State → Json) := of_name State.ofName?_name

theorem action : IsFaithful (encode : Action → Json) := of_name Action.ofName?_name

theorem role : IsFaithful (encode : Role → Json) := of_name Role.ofName?_name

theorem eventName : IsFaithful (encode : Event.Name → Json) := of_name Event.Name.ofText?_text

theorem string : IsFaithful (encode : String → Json) := of_text fun _ _ h => h

theorem instant : IsFaithful (encode : Instant → Json) := of_text fun _ _ => Instant.text_injective

theorem policyId : IsFaithful (encode : PolicyId → Json) :=
  of_text fun x y (h : x.uuid.text = y.uuid.text) => by
    cases x
    cases y
    exact congrArg _ (Uuid.text_injective h)

theorem holderId : IsFaithful (encode : HolderId → Json) :=
  of_text fun x y (h : x.text = y.text) => by
    cases x
    cases y
    exact congrArg _ h

theorem claimId : IsFaithful (encode : ClaimId → Json) :=
  of_text fun x y (h : x.text = y.text) => by
    cases x
    cases y
    exact congrArg _ h

theorem proposalId : IsFaithful (encode : ProposalId → Json) :=
  of_text fun x y (h : x.text = y.text) => by
    cases x
    cases y
    exact congrArg _ h

theorem nat : IsFaithful (encode : Nat → Json) where
  injective _ _ h := Int.ofNat.inj (Json.int.inj h)
  exact _ := rfl

theorem bool : IsFaithful (encode : Bool → Json) where
  injective _ _ h := Json.bool.inj h
  exact _ := rfl

theorem option : IsFaithful fun x : Option String => Json.encodeOption x where
  injective x y h := by
    cases x with
    | none =>
      cases y with
      | none => rfl
      | some t => exact absurd h (by simp [Json.encodeOption, Json.ofOption, encode, Json.normal])
    | some s =>
      cases y with
      | none => exact absurd h (by simp [Json.encodeOption, Json.ofOption, encode, Json.normal])
      | some t => exact congrArg some (Json.str.inj h)
  exact x := by cases x <;> rfl

theorem digest : IsFaithful (encode : Digest → Json) where
  injective x y h := by
    have hitems : (x.toBytes.map fun b => Json.nat b.toNat).map Json.normal =
        (y.toBytes.map fun b => Json.nat b.toNat).map Json.normal := by
      rw [← Json.normalItems_eq_map, ← Json.normalItems_eq_map]
      exact Json.arr.inj h
    rw [List.map_map, List.map_map] at hitems
    have hbytes : x.toBytes = y.toBytes := by
      refine (List.map_inj_right fun b c hbc => ?_).1 hitems
      exact UInt8.toNat_inj.1 (Int.ofNat.inj (Json.int.inj hbc))
    have hx := x.ofBytes?_toBytes
    rw [hbytes, y.ofBytes?_toBytes] at hx
    exact (Option.some_inj.1 hx).symm
  exact x := by
    show (Json.arr _).firstFloat? = none
    rw [Json.firstFloat?, Json.firstFloatOfItems?_eq_none_iff]
    intro v hv
    obtain ⟨b, -, rfl⟩ := List.mem_map.1 hv
    rfl

end IsFaithful

namespace Event

theorem isFaithful_policyChange : IsFaithful (encode : PolicyChange → Json) where
  injective x y h := by
    -- every member determines the field that it was written for
    have hpolicy := IsFaithful.policyId.injective _ _ (Json.member_eq h "policy_id" rfl rfl)
    have hholder := IsFaithful.holderId.injective _ _ (Json.member_eq h "holder_id" rfl rfl)
    have hsource := IsFaithful.state.injective _ _ (Json.member_eq h "from" rfl rfl)
    have htarget := IsFaithful.state.injective _ _ (Json.member_eq h "to" rfl rfl)
    have haction := IsFaithful.action.injective _ _ (Json.member_eq h "action" rfl rfl)
    have hactor := IsFaithful.role.injective _ _ (Json.member_eq h "actor_role" rfl rfl)
    have hreason := IsFaithful.option.injective _ _ (Json.member_eq h "reason" rfl rfl)
    have hversion := IsFaithful.nat.injective _ _ (Json.member_eq h "version" rfl rfl)
    have hmoment := IsFaithful.instant.injective _ _ (Json.member_eq h "occurred_at" rfl rfl)
    cases x
    cases y
    simp_all only
  exact x := by
    refine Json.exact_obj ?_
    simp only [List.forall_mem_cons]
    exact ⟨IsFaithful.policyId.exact _, IsFaithful.holderId.exact _, IsFaithful.state.exact _,
      IsFaithful.state.exact _, IsFaithful.action.exact _, IsFaithful.role.exact _,
      IsFaithful.option.exact _, IsFaithful.nat.exact _, IsFaithful.instant.exact _,
      fun _ h => absurd h List.not_mem_nil⟩

/-- Bodies of different kinds do not have one meaning. -/
theorem kind_ne {members members' : List (String × Json)} {kind kind' : String}
    (h : (Json.obj members).normal = (Json.obj members').normal)
    (hkind : members.reverse.lookup "kind" = some (.str kind))
    (hkind' : members'.reverse.lookup "kind" = some (.str kind')) : kind = kind' :=
  Json.str.inj (Json.member_eq h "kind" hkind hkind')

theorem isFaithful_claimProgress : IsFaithful (encode : ClaimProgress → Json) where
  injective x y h := by
    obtain ⟨claim, claimant, step⟩ := x
    obtain ⟨claim', claimant', step'⟩ := y
    -- the kind tells which step was taken, and each step has members of its own
    cases step with
    | submitted policy =>
      cases step' with
      | submitted policy' =>
        obtain rfl := IsFaithful.claimId.injective claim claim'
          (Json.member_eq h "claim_id" rfl rfl)
        obtain rfl := IsFaithful.holderId.injective claimant claimant'
          (Json.member_eq h "user_id" rfl rfl)
        obtain rfl := IsFaithful.policyId.injective policy policy'
          (Json.member_eq h "policy_id" rfl rfl)
        rfl
      | approved | rejected | settled => exact absurd (kind_ne h rfl rfl) (by decide)
    | approved =>
      cases step' with
      | approved =>
        obtain rfl := IsFaithful.claimId.injective claim claim'
          (Json.member_eq h "claim_id" rfl rfl)
        obtain rfl := IsFaithful.holderId.injective claimant claimant'
          (Json.member_eq h "user_id" rfl rfl)
        rfl
      | submitted | rejected | settled => exact absurd (kind_ne h rfl rfl) (by decide)
    | rejected reason =>
      cases step' with
      | rejected reason' =>
        obtain rfl := IsFaithful.claimId.injective claim claim'
          (Json.member_eq h "claim_id" rfl rfl)
        obtain rfl := IsFaithful.holderId.injective claimant claimant'
          (Json.member_eq h "user_id" rfl rfl)
        obtain rfl := IsFaithful.string.injective reason reason'
          (Json.member_eq h "reason" rfl rfl)
        rfl
      | submitted | approved | settled => exact absurd (kind_ne h rfl rfl) (by decide)
    | settled amount =>
      cases step' with
      | settled amount' =>
        obtain rfl := IsFaithful.claimId.injective claim claim'
          (Json.member_eq h "claim_id" rfl rfl)
        obtain rfl := IsFaithful.holderId.injective claimant claimant'
          (Json.member_eq h "user_id" rfl rfl)
        obtain rfl := IsFaithful.nat.injective amount amount'
          (Json.member_eq h "amount_minor" rfl rfl)
        rfl
      | submitted | approved | rejected => exact absurd (kind_ne h rfl rfl) (by decide)
  exact x := by
    obtain ⟨claim, claimant, step⟩ := x
    cases step <;> rfl

theorem isFaithful_proposalProgress : IsFaithful (encode : ProposalProgress → Json) where
  injective x y h := by
    obtain ⟨proposal, creator, step⟩ := x
    obtain ⟨proposal', creator', step'⟩ := y
    cases step with
    | created title =>
      cases step' with
      | created title' =>
        obtain rfl := IsFaithful.proposalId.injective proposal proposal'
          (Json.member_eq h "proposal_id" rfl rfl)
        obtain rfl := IsFaithful.holderId.injective creator creator'
          (Json.member_eq h "creator_id" rfl rfl)
        obtain rfl := IsFaithful.string.injective title title'
          (Json.member_eq h "title" rfl rfl)
        rfl
      | finalized => exact absurd (kind_ne h rfl rfl) (by decide)
    | finalized passed =>
      cases step' with
      | finalized passed' =>
        obtain rfl := IsFaithful.proposalId.injective proposal proposal'
          (Json.member_eq h "proposal_id" rfl rfl)
        obtain rfl := IsFaithful.holderId.injective creator creator'
          (Json.member_eq h "creator_id" rfl rfl)
        obtain rfl := IsFaithful.bool.injective passed passed'
          (Json.member_eq h "passed" rfl rfl)
        rfl
      | created => exact absurd (kind_ne h rfl rfl) (by decide)
  exact x := by
    obtain ⟨proposal, creator, step⟩ := x
    cases step <;> rfl

theorem isFaithful_payload : IsFaithful (encode : Payload → Json) where
  injective x y h := by
    cases x with
    | claim progress =>
      cases y with
      | claim progress' =>
        rw [isFaithful_claimProgress.injective progress progress'
          (Json.member_eq h "claim" rfl rfl)]
      | policy | proposal => exact (Json.not_member h "claim" rfl rfl).elim
    | policy change =>
      cases y with
      | policy change' =>
        rw [isFaithful_policyChange.injective change change' (Json.member_eq h "policy" rfl rfl)]
      | claim | proposal => exact (Json.not_member h "policy" rfl rfl).elim
    | proposal progress =>
      cases y with
      | proposal progress' =>
        rw [isFaithful_proposalProgress.injective progress progress'
          (Json.member_eq h "proposal" rfl rfl)]
      | claim | policy => exact (Json.not_member h "proposal" rfl rfl).elim
  exact x := by
    cases x with
    | claim progress =>
      exact Json.exact_obj (List.forall_mem_singleton.2 (isFaithful_claimProgress.exact progress))
    | policy change =>
      exact Json.exact_obj (List.forall_mem_singleton.2 (isFaithful_policyChange.exact change))
    | proposal progress =>
      exact Json.exact_obj
        (List.forall_mem_singleton.2 (isFaithful_proposalProgress.exact progress))

end Event

end PolicyBook
