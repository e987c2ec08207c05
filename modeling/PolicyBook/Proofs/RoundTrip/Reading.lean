import PolicyBook.Event
import PolicyBook.Notification
import PolicyBook.Proofs.Identifiers
import PolicyBook.Proofs.Instants
import PolicyBook.Proofs.Json.Lossless
import PolicyBook.Proofs.Json.Parts
/-!
Reading back what was written as JSON.

A value is read back from its form when every text that has the form as its value, in one piece or
in parts, is read as the value again. The form must also survive as a text: its numbers are integers
of sixty-four bits, and it does not nest too deep. All three go together from the parts of a value
to the value.

* **`ReadsAs.list`**, **`ReadsAs.record`**, **`ReadsAs.tagged`** — lists, records and the records
  that carry a kind;
* **`ReadsAs.restored`** — what is read back from its form is also read back from the line on which
  the form is written.
-/
namespace PolicyBook

open Policy

/-- A JSON value is read as `x`, in one piece or in parts; it survives as a text and nests no deeper
than so many levels. -/
structure ReadsAs {α : Type} (levels : Nat) (v : Json) (read : Json.Raw → Option α) (x : α) :
    Prop where
  exact : v.IsExact
  depth : v.depth ≤ levels
  back : ∀ r : Json.Raw, r.value? = some v → read r = some x

/-- A value is read back from its form. -/
abbrev ReadsBack {α : Type} [JsonForm α] (levels : Nat) (x : α) : Prop :=
  ReadsAs levels (encode x) read? x

/-- A value is what its form stands for, and what the line stands for on which the form is
written. -/
structure IsRestored {α : Type} [JsonForm α] (x : α) : Prop where
  form : decode? (encode x) = some x
  line : (Json.Raw.ofText? (encode x).line).bind read? = some x

namespace ReadsAs

variable {α : Type} {levels : Nat} {v : Json} {read : Json.Raw → Option α} {x : α}

theorem fits (h : ReadsAs levels v read x) : v.IsExact ∧ v.depth ≤ levels :=
  ⟨h.exact, h.depth⟩

theorem required [JsonForm α] (h : ReadsBack levels x) {r : Json.Raw}
    (hr : r.value? = some (encode x)) : Json.required? (some r) = some x :=
  h.back r hr

theorem restored [JsonForm α] (h : ReadsBack levels x) (hlevels : levels ≤ Json.maxNesting) :
    IsRestored x where
  form := h.back _ rfl
  line := by
    obtain ⟨r, htake, hvalue⟩ := Json.takeRaw?_compact h.exact (2 * (encode x).compact.length + 1)
      Json.maxNesting [] Json.isClosed_nil (by rw [List.append_nil]; omega)
    rw [List.append_nil] at htake
    rw [if_pos (Nat.le_trans h.depth hlevels)] at hvalue
    have hraw : Json.Raw.ofText? (encode x).line = some r := by
      rw [Json.Raw.ofText?, Json.line, String.toList_ofList, Json.Raw.ofChars?, htake]
      rfl
    rw [hraw]
    exact h.back r hvalue

/-! ### Texts, truth values and numbers -/

theorem of_scalar (hexact : v.IsExact) (hdepth : v.depth = 0) (hlist : v.kind ≠ 5)
    (hobject : v.kind ≠ 6) (hread : read (.value v) = some x) : ReadsAs levels v read x where
  exact := hexact
  depth := by
    rw [hdepth]
    exact Nat.zero_le _
  back r hr := by
    rw [Json.Raw.eq_value_of_scalar hr hlist hobject]
    exact hread

theorem of_text {s : String} (h : read (.value (.str s)) = some x) :
    ReadsAs levels (.str s) read x :=
  of_scalar (.str s) rfl (by simp [Json.kind]) (by simp [Json.kind]) h

theorem of_parsed {ofText? : String → Option α} {s : String} (h : ofText? s = some x) :
    ReadsAs levels (.str s) (fun r => r.str?.bind ofText?) x :=
  of_text h

theorem of_name {ofName? : String → Option α} {s : String} (h : ofName? s = some x) :
    ReadsAs levels (.str s) (Json.named? ofName?) x :=
  of_text h

theorem map {β : Type} (h : ReadsAs levels v read x) (f : α → β) :
    ReadsAs levels v (fun r => (read r).map f) (f x) where
  exact := h.exact
  depth := h.depth
  back r hr := by rw [h.back r hr, Option.map_some]

theorem string (s : String) : ReadsBack levels s := of_text rfl

theorem bool (b : Bool) : ReadsBack levels b :=
  of_scalar (.bool b) rfl (by simp [encode, Json.kind]) (by simp [encode, Json.kind]) rfl

theorem nat {n : Nat} (h : n ≤ Text.maxWord) : ReadsBack levels n := by
  have hle : (n : Int) ≤ Text.maxWord := Int.ofNat_le.2 h
  have hexact : (encode n).IsExact := .int n (by omega) hle
  refine of_scalar hexact rfl (by simp [encode, Json.nat, Json.kind])
    (by simp [encode, Json.nat, Json.kind]) ?_
  show (if (0 : Int) ≤ n ∧ (n : Int) ≤ Text.maxWord then some (n : Int).toNat else none) = some n
  rw [if_pos ⟨Int.natCast_nonneg n, hle⟩, Int.toNat_natCast]

theorem option (s : Option String) :
    ReadsAs levels (Json.encodeOption s) (fun r => Json.optional? (some r)) s := by
  cases s with
  | none =>
    have hnull : ReadsAs levels .null (fun r => Json.optional? (some r)) (none : Option String) :=
      of_scalar .null rfl (by simp [Json.kind]) (by simp [Json.kind]) rfl
    exact hnull
  | some s => exact of_text rfl

theorem state (s : State) : ReadsBack levels s := of_name (State.ofName?_name s)

theorem action (a : Action) : ReadsBack levels a := of_name (Action.ofName?_name a)

theorem role (r : Role) : ReadsBack levels r := of_name (Role.ofName?_name r)

theorem eventName (name : Event.Name) : ReadsBack levels name :=
  of_name (Event.Name.ofText?_text name)

theorem category (c : Notification.Category) : ReadsBack levels c :=
  of_name (show Notification.Category.ofName? c.name = some c by cases c <;> decide)

theorem instant (t : Instant) : ReadsBack levels t := of_parsed t.ofText?_text

theorem uuid (u : Uuid) : ReadsBack levels u := of_parsed u.ofText?_text

theorem policyId (id : PolicyId) : ReadsBack levels id := (uuid id.uuid).map PolicyId.mk

theorem holderId (id : HolderId) : ReadsBack levels id := (string id.text).map HolderId.mk

theorem claimId (id : ClaimId) : ReadsBack levels id := (string id.text).map ClaimId.mk

theorem proposalId (id : ProposalId) : ReadsBack levels id := (string id.text).map ProposalId.mk

/-! ### Lists and records -/

theorem mapM_read? [JsonForm α] {xs : List α} {rs : List Json.Raw}
    (hvalues : rs.map Json.Raw.value? = (xs.map encode).map some)
    (heach : ∀ x ∈ xs, ReadsBack levels x) : rs.mapM read? = some xs := by
  induction xs generalizing rs with
  | nil =>
    obtain rfl := List.map_eq_nil_iff.1 hvalues
    rfl
  | cons x xs ih =>
    obtain ⟨r, rest, rfl, hr, hrest⟩ := List.map_eq_cons_iff.1 hvalues
    rw [List.mapM_cons, (heach x List.mem_cons_self).back r hr,
      ih hrest fun y hy => heach y (List.mem_cons_of_mem _ hy)]
    rfl

theorem list [JsonForm α] {xs : List α} (h : ∀ x ∈ xs, ReadsBack levels x) :
    ReadsBack (levels + 1) xs where
  exact := by
    refine .arr _ fun v hv => ?_
    obtain ⟨x, hx, rfl⟩ := List.mem_map.1 hv
    exact (h x hx).exact
  depth := by
    refine Nat.succ_le_succ (Json.depthOfItems_le_iff.2 fun v hv => ?_)
    obtain ⟨x, hx, rfl⟩ := List.mem_map.1 hv
    exact (h x hx).depth
  back r hr := by
    obtain ⟨rs, hitems, hvalues⟩ := Json.Raw.items?_of_value hr
    show r.items?.bind (fun items => items.mapM read?) = some xs
    rw [hitems]
    exact mapM_read? hvalues h

theorem of_members {members : List (String × Json)}
    (heach : ∀ m ∈ members, m.2.IsExact ∧ m.2.depth ≤ levels)
    (hread : ∀ r : Json.Raw, r.value? = some (.obj members) → read r = some x) :
    ReadsAs (levels + 1) (.obj members) read x where
  exact := .obj _ fun m hm => (heach m hm).1
  depth := Nat.succ_le_succ (Json.depthOfMembers_le_iff.2 fun m hm => (heach m hm).2)
  back := hread

/-- A record is read back when it is made again from its parts. -/
theorem record {members : List (String × Json)} (hnames : (members.map Prod.fst).Nodup)
    (heach : ∀ m ∈ members, m.2.IsExact ∧ m.2.depth ≤ levels)
    (hread : ∀ (r : Json.Raw) (part : String → Json.Raw),
      r.fields? (members.map Prod.fst) = some (members.map fun m => some (part m.1)) →
      (∀ m ∈ members, (part m.1).value? = some m.2) → read r = some x) :
    ReadsAs (levels + 1) (.obj members) read x := by
  refine of_members heach fun r hr => ?_
  obtain ⟨part, hfields, hpart⟩ := Json.Raw.fields?_of_value hnames hr
  exact hread r part hfields hpart

/-- A record that carries a kind is read back when it is made again from the parts behind the
kind. -/
theorem tagged {kind : String} (members : List (String × Json))
    (hkind : "kind" ∉ members.map Prod.fst) (hnames : (members.map Prod.fst).Nodup)
    (heach : ∀ m ∈ members, m.2.IsExact ∧ m.2.depth ≤ levels)
    (hread : ∀ (r body : Json.Raw) (part : String → Json.Raw),
      Event.kindAndBody? r = some (kind, body) →
      body.fields? (members.map Prod.fst) = some (members.map fun m => some (part m.1)) →
      (∀ m ∈ members, (part m.1).value? = some m.2) → read r = some x) :
    ReadsAs (levels + 1) (.obj (("kind", .str kind) :: members)) read x := by
  refine of_members ?_ fun r hr => ?_
  · intro m hm
    rcases List.mem_cons.1 hm with rfl | hm
    · exact ⟨.str kind, Nat.zero_le _⟩
    · exact heach m hm
  · have hne (m : String × Json) (hm : m ∈ members) : m.1 ≠ "kind" := by
      intro heq
      exact hkind (heq ▸ List.mem_map_of_mem hm)
    have hbody : Event.kindAndBody? r = some (kind, .value (.obj members)) := by
      -- the kind stands alone under its name, and without it the members are left
      have hone : (("kind", Json.str kind) :: members).filter (fun m => m.1 == "kind") =
          [("kind", .str kind)] := by
        rw [List.filter_cons_of_pos rfl, List.filter_eq_nil_iff.2]
        intro m hm
        simpa using hne m hm
      have hrest : (("kind", Json.str kind) :: members).filter (fun m => m.1 != "kind") =
          members := by
        rw [List.filter_cons_of_neg (by simp), List.filter_eq_self.2]
        intro m hm
        simpa using hne m hm
      rw [Event.kindAndBody?, hr]
      simp only [Option.bind_eq_bind, Option.bind_some, hone, hrest]
    obtain ⟨part, hfields, hpart⟩ := Json.Raw.fields?_of_value hnames
      (show (Json.Raw.value (.obj members)).value? = some (.obj members) from rfl)
    exact hread r _ part hbody hfields hpart

end ReadsAs

end PolicyBook
