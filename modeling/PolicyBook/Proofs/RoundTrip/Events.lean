import PolicyBook.Audit
import PolicyBook.Proofs.RoundTrip.Reading
/-!
Events are read back, and what is made of them.

The progress of a claim or of a proposal carries its kind, and the family of an event names its
payload. An audit entry has the payload inside, beside two digests; a notification has its wording.

* **`ReadsAs.payload`**, **`ReadsAs.event`** — events;
* **`ReadsAs.digest`** — rows of bytes;
* **`ReadsAs.entry`**, **`ReadsAs.notification`** — what is recorded and what is told.
-/
namespace PolicyBook

/-! ### Numbers of sixty-four bits -/

def Event.ClaimStep.IsWordSized : ClaimStep → Prop
  | submitted _ | approved | rejected _ => True
  | settled amount => amount ≤ Text.maxWord

def Event.Payload.IsWordSized : Payload → Prop
  | claim progress => progress.step.IsWordSized
  | policy change => change.version ≤ Text.maxWord
  | proposal _ => True

structure Audit.Entry.IsWordSized (e : Entry) : Prop where
  sequence : e.sequence ≤ Text.maxWord
  payload : e.payload.IsWordSized

namespace ReadsAs

variable {α : Type} {levels : Nat} {read : Json.Raw → Option α}

/-! ### Events -/

theorem policyChange {c : Event.PolicyChange} (h : c.version ≤ Text.maxWord) :
    ReadsBack (levels + 1) c := by
  have hpolicy : ReadsBack levels c.policy := policyId _
  have hholder : ReadsBack levels c.holder := holderId _
  have hsource : ReadsBack levels c.source := state _
  have htarget : ReadsBack levels c.target := state _
  have haction : ReadsBack levels c.action := action _
  have hactor : ReadsBack levels c.actor := role _
  have hreason : ReadsAs levels _ _ c.reason := option _
  have hversion : ReadsBack levels c.version := nat h
  have hoccurredAt : ReadsBack levels c.occurredAt := instant _
  refine record (by simp) ?_ fun r part hfields hpart => ?_
  · simp only [List.forall_mem_cons]
    exact ⟨hpolicy.fits, hholder.fits, hsource.fits, htarget.fits, haction.fits, hactor.fits,
      hreason.fits, hversion.fits, hoccurredAt.fits, by simp⟩
  · simp only [List.forall_mem_cons] at hpart
    obtain ⟨rpolicy, rholder, rsource, rtarget, raction, ractor, rreason, rversion, roccurredAt,
      -⟩ := hpart
    refine (bind_of_eq hfields _).trans ?_
    simp [hpolicy.required rpolicy, hholder.required rholder, hsource.required rsource,
      htarget.required rtarget, haction.required raction, hactor.required ractor,
      hreason.back _ rreason, hversion.required rversion, hoccurredAt.required roccurredAt]

theorem claimProgress {p : Event.ClaimProgress} (h : p.step.IsWordSized) :
    ReadsBack (levels + 1) p := by
  obtain ⟨claim, claimant, step⟩ := p
  have hclaim : ReadsBack levels claim := claimId _
  have hclaimant : ReadsBack levels claimant := holderId _
  cases step with
  | submitted policy =>
    have hpolicy : ReadsBack levels policy := policyId _
    refine tagged [("claim_id", encode claim), ("user_id", encode claimant),
      ("policy_id", encode policy)] (by simp) (by simp) ?_ fun r body part hbody hfields hpart => ?_
    · simp only [List.forall_mem_cons]
      exact ⟨hclaim.fits, hclaimant.fits, hpolicy.fits, by simp⟩
    · simp only [List.forall_mem_cons] at hpart
      obtain ⟨rclaim, rclaimant, rpolicy, -⟩ := hpart
      refine (bind_of_eq hbody _).trans ((bind_of_eq hfields _).trans ?_)
      simp [hclaim.required rclaim, hclaimant.required rclaimant, hpolicy.required rpolicy]
  | approved =>
    refine tagged [("claim_id", encode claim), ("user_id", encode claimant)] (by simp) (by simp)
      ?_ fun r body part hbody hfields hpart => ?_
    · simp only [List.forall_mem_cons]
      exact ⟨hclaim.fits, hclaimant.fits, by simp⟩
    · simp only [List.forall_mem_cons] at hpart
      obtain ⟨rclaim, rclaimant, -⟩ := hpart
      refine (bind_of_eq hbody _).trans ((bind_of_eq hfields _).trans ?_)
      simp [hclaim.required rclaim, hclaimant.required rclaimant]
  | rejected reason =>
    have hreason : ReadsBack levels reason := string _
    refine tagged [("claim_id", encode claim), ("user_id", encode claimant),
      ("reason", encode reason)] (by simp) (by simp) ?_ fun r body part hbody hfields hpart => ?_
    · simp only [List.forall_mem_cons]
      exact ⟨hclaim.fits, hclaimant.fits, hreason.fits, by simp⟩
    · simp only [List.forall_mem_cons] at hpart
      obtain ⟨rclaim, rclaimant, rreason, -⟩ := hpart
      refine (bind_of_eq hbody _).trans ((bind_of_eq hfields _).trans ?_)
      simp [hclaim.required rclaim, hclaimant.required rclaimant, hreason.required rreason]
  | settled amount =>
    have hamount : ReadsBack levels amount := nat h
    refine tagged [("claim_id", encode claim), ("user_id", encode claimant),
      ("amount_minor", encode amount)] (by simp) (by simp)
      ?_ fun r body part hbody hfields hpart => ?_
    · simp only [List.forall_mem_cons]
      exact ⟨hclaim.fits, hclaimant.fits, hamount.fits, by simp⟩
    · simp only [List.forall_mem_cons] at hpart
      obtain ⟨rclaim, rclaimant, ramount, -⟩ := hpart
      refine (bind_of_eq hbody _).trans ((bind_of_eq hfields _).trans ?_)
      simp [hclaim.required rclaim, hclaimant.required rclaimant, hamount.required ramount]

theorem proposalProgress (p : Event.ProposalProgress) : ReadsBack (levels + 1) p := by
  obtain ⟨proposal, creator, step⟩ := p
  have hproposal : ReadsBack levels proposal := proposalId _
  have hcreator : ReadsBack levels creator := holderId _
  cases step with
  | created title =>
    have htitle : ReadsBack levels title := string _
    refine tagged [("proposal_id", encode proposal), ("creator_id", encode creator),
      ("title", encode title)] (by simp) (by simp) ?_ fun r body part hbody hfields hpart => ?_
    · simp only [List.forall_mem_cons]
      exact ⟨hproposal.fits, hcreator.fits, htitle.fits, by simp⟩
    · simp only [List.forall_mem_cons] at hpart
      obtain ⟨rproposal, rcreator, rtitle, -⟩ := hpart
      refine (bind_of_eq hbody _).trans ((bind_of_eq hfields _).trans ?_)
      simp [hproposal.required rproposal, hcreator.required rcreator, htitle.required rtitle]
  | finalized passed =>
    have hpassed : ReadsBack levels passed := bool _
    refine tagged [("proposal_id", encode proposal), ("creator_id", encode creator),
      ("passed", encode passed)] (by simp) (by simp) ?_ fun r body part hbody hfields hpart => ?_
    · simp only [List.forall_mem_cons]
      exact ⟨hproposal.fits, hcreator.fits, hpassed.fits, by simp⟩
    · simp only [List.forall_mem_cons] at hpart
      obtain ⟨rproposal, rcreator, rpassed, -⟩ := hpart
      refine (bind_of_eq hbody _).trans ((bind_of_eq hfields _).trans ?_)
      simp [hproposal.required rproposal, hcreator.required rcreator, hpassed.required rpassed]

/-- An object whose only member is named for the family of its body. -/
theorem family {β : Type} [JsonForm β] {name : String} {body : β} {f : β → α}
    (h : ReadsBack levels body)
    (hread : ∀ r part, r.members? = some [(name, part)] → read r = (read? part).map f) :
    ReadsAs (levels + 1) (.obj [(name, encode body)]) read (f body) := by
  refine of_members (List.forall_mem_singleton.2 h.fits) fun r hr => ?_
  obtain ⟨rs, hmembers, hvalues⟩ := Json.Raw.members?_of_value hr
  obtain ⟨m, rest, rfl, hm, hrest⟩ := List.map_eq_cons_iff.1 hvalues
  obtain rfl := List.map_eq_nil_iff.1 hrest
  obtain ⟨hname, hvalue⟩ := Prod.mk.inj hm
  obtain ⟨member, part⟩ := m
  obtain rfl : member = name := hname
  rw [hread r part hmembers, h.back part hvalue, Option.map_some]

theorem payload {p : Event.Payload} (h : p.IsWordSized) : ReadsBack (levels + 2) p := by
  cases p with
  | claim progress => exact family (claimProgress h) fun r part hr => by simp only [read?, hr]
  | policy change => exact family (policyChange h) fun r part hr => by simp only [read?, hr]
  | proposal progress =>
    exact family (proposalProgress progress) fun r part hr => by simp only [read?, hr]

theorem event {e : Event} (h : e.payload.IsWordSized) : ReadsBack (levels + 3) e := by
  have hname : ReadsBack (levels + 2) e.name := eventName _
  have hpayload : ReadsBack (levels + 2) e.payload := payload h
  refine record (by simp) ?_ fun r part hfields hpart => ?_
  · simp only [List.forall_mem_cons]
    exact ⟨hname.fits, hpayload.fits, by simp⟩
  · simp only [List.forall_mem_cons] at hpart
    obtain ⟨rname, rpayload, -⟩ := hpart
    refine (bind_of_eq hfields _).trans ?_
    simp [hname.required rname, hpayload.required rpayload]

/-! ### Entries and notifications -/

theorem digest (d : Digest) : ReadsBack (levels + 1) d := by
  have hbytes : ReadsBack (levels + 1) (d.toBytes.map UInt8.toNat) := by
    refine list fun n hn => ?_
    obtain ⟨b, -, rfl⟩ := List.mem_map.1 hn
    exact nat (Nat.le_trans (Nat.le_of_lt b.toNat_lt) (by decide))
  have hform : encode d = encode (d.toBytes.map UInt8.toNat) := by
    show Json.arr _ = Json.arr _
    rw [List.map_map]
    rfl
  have hsmall : (d.toBytes.map UInt8.toNat).all (· < 256) = true := by
    rw [List.all_map, List.all_eq_true]
    intro b _
    exact decide_eq_true b.toNat_lt
  have hback : (d.toBytes.map UInt8.toNat).map Nat.toUInt8 = d.toBytes := by
    simp [List.map_map, Function.comp_def]
  refine ⟨hform ▸ hbytes.exact, hform ▸ hbytes.depth, fun r hr => ?_⟩
  have hguard : (guard ((d.toBytes.map UInt8.toNat).all (· < 256) = true) : Option Unit) =
      some () := if_pos hsmall
  refine (bind_of_eq (hbytes.back r (hform ▸ hr)) _).trans ?_
  refine (bind_of_eq hguard _).trans ?_
  rw [hback, d.ofBytes?_toBytes]

theorem entry {e : Audit.Entry} (h : e.IsWordSized) : ReadsBack (levels + 3) e := by
  have hsequence : ReadsBack (levels + 2) e.sequence := nat h.sequence
  have hevent : ReadsBack (levels + 2) e.event := eventName _
  have hpayload : ReadsBack (levels + 2) e.payload := payload h.payload
  have hprevious : ReadsBack (levels + 2) e.previous := digest _
  have hdigest : ReadsBack (levels + 2) e.digest := digest _
  refine record (by simp) ?_ fun r part hfields hpart => ?_
  · simp only [List.forall_mem_cons]
    exact ⟨hsequence.fits, hevent.fits, hpayload.fits, hprevious.fits, hdigest.fits, by simp⟩
  · simp only [List.forall_mem_cons] at hpart
    obtain ⟨rsequence, revent, rpayload, rprevious, rdigest, -⟩ := hpart
    refine (bind_of_eq hfields _).trans ?_
    simp [hsequence.required rsequence, hevent.required revent, hpayload.required rpayload,
      hprevious.required rprevious, hdigest.required rdigest]

theorem notification (n : Notification) : ReadsBack (levels + 1) n := by
  have hid : ReadsBack levels n.id := uuid _
  have huser : ReadsBack levels n.user := holderId _
  have hcategory : ReadsBack levels n.content.category := category _
  have htitle : ReadsBack levels n.content.title := string _
  have hmessage : ReadsBack levels n.content.message := string _
  have hread : ReadsBack levels n.read := bool _
  have hcreatedAt : ReadsBack levels n.createdAt := instant _
  refine record (by simp) ?_ fun r part hfields hpart => ?_
  · simp only [List.forall_mem_cons]
    exact ⟨hid.fits, huser.fits, hcategory.fits, htitle.fits, hmessage.fits, hread.fits,
      hcreatedAt.fits, by simp⟩
  · simp only [List.forall_mem_cons] at hpart
    obtain ⟨rid, ruser, rcategory, rtitle, rmessage, rread, rcreatedAt, -⟩ := hpart
    refine (bind_of_eq hfields _).trans ?_
    simp [hid.required rid, huser.required ruser, hcategory.required rcategory,
      htitle.required rtitle, hmessage.required rmessage, hread.required rread,
      hcreatedAt.required rcreatedAt]

end ReadsAs

end PolicyBook
