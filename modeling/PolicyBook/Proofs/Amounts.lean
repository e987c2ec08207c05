import PolicyBook.Notification
import PolicyBook.Proofs.Numerals.Values
/-!
Amounts of money in messages.

Amounts are kept in the smallest unit, a hundredth, and told with a point in front of the last two
digits. Read as whole units and hundredths the text makes the amount again, and it is the only one
in this form that does. So nobody is told the same about two amounts.

* **`Notification.isAmount_iff`** — the text of an amount;
* **`Notification.amountText_injective`** — different amounts have different texts;
* **`Notification.settled_amount_isExact`** — what the claimant is told about a settled claim.
-/
namespace PolicyBook.Notification

open Text

variable {amount amount' : Nat} {cs : List Char}

/-- Whole units without idle zeros, a point, and hundredths with two digits. -/
def IsAmount (cs : List Char) (amount : Nat) : Prop :=
  ∃ whole places units hundredths, cs = whole ++ '.' :: places ∧
    (Denotes whole units ∧ HasNoIdleZero whole) ∧
    (Denotes places hundredths ∧ places.length = 2) ∧ 100 * units + hundredths = amount

theorem toList_amountText (amount : Nat) :
    (amountText amount).toList = decimal (amount / 100) ++ '.' :: padded 2 (amount % 100) :=
  String.toList_ofList

/-- The text of an amount is in this form, and there is no other for the amount. -/
theorem isAmount_iff : IsAmount cs amount ↔ cs = (amountText amount).toList := by
  rw [toList_amountText]
  have hhundred : tenTo 2 = 100 := rfl
  constructor
  · rintro ⟨whole, places, units, hundredths, rfl, ⟨hwhole, hidle⟩, ⟨hplaces, hlength⟩, rfl⟩
    have hsmall := hplaces.lt_tenTo
    have htwo := hplaces.eq_padded
    rw [hlength] at hsmall htwo
    have hunits : (100 * units + hundredths) / 100 = units := by omega
    have hrest : (100 * units + hundredths) % 100 = hundredths := by omega
    rw [hunits, hrest, ← hwhole.eq_decimal hidle, ← htwo]
  · rintro rfl
    refine ⟨_, _, amount / 100, amount % 100, rfl, ⟨denotes_decimal _, hasNoIdleZero_decimal _⟩,
      ⟨denotes_padded 2 _, ?_⟩, by omega⟩
    exact length_padded (by decide) (by omega)

theorem amountText_injective (h : amountText amount = amountText amount') : amount = amount' := by
  have hpoint (places : List Char) : Undigited ('.' :: places) := undigited_cons.2 rfl
  have hchars := String.toList_inj.2 h
  rw [toList_amountText, toList_amountText] at hchars
  obtain ⟨hunits, hrest⟩ := decimal_append_inj (hpoint _) (hpoint _) hchars
  have hplaces := denotes_padded 2 (amount % 100)
  rw [(List.cons.inj hrest).2] at hplaces
  have hhundredths := hplaces.unique (denotes_padded 2 (amount' % 100))
  omega

theorem IsAmount.unique (h : IsAmount cs amount) (h' : IsAmount cs amount') : amount = amount' := by
  refine amountText_injective (String.toList_inj.1 ?_)
  rw [← isAmount_iff.1 h, ← isAmount_iff.1 h']

/-- What the claimant is told when a claim is settled. -/
def settledMessage (claim : ClaimId) (claimant : HolderId) (amount : Nat) : String :=
  (about (.claim ⟨claim, claimant, .settled amount⟩)).message

/-- What stands in the message in front of the amount. -/
def settledOpening (claim : ClaimId) : String :=
  "Your claim (ID: " ++ claim.text ++ ") has been settled. "

theorem settledMessage_eq (claim : ClaimId) (claimant : HolderId) (amount : Nat) :
    settledMessage claim claimant amount =
      settledOpening claim ++ "Amount: $" ++ amountText amount := by
  have hwords : ") has been settled. Amount: $" = ") has been settled. " ++ "Amount: $" := by decide
  show "Your claim (ID: " ++ claim.text ++ ") has been settled. Amount: $" ++ amountText amount =
    "Your claim (ID: " ++ claim.text ++ ") has been settled. " ++ "Amount: $" ++ amountText amount
  rw [hwords]
  simp only [String.append_assoc]

/-- The message about a settled claim ends with the amount, from which the amount is read back. So
two amounts are never told in the same words, whoever made the claim. -/
theorem settled_amount_isExact (claim : ClaimId) :
    (∀ claimant amount, ∃ text : String,
      settledMessage claim claimant amount = settledOpening claim ++ "Amount: $" ++ text ∧
      IsAmount text.toList amount ∧
      ∀ amount', IsAmount text.toList amount' → amount' = amount) ∧
    ∀ claimant claimant' amount amount', amount ≠ amount' →
      settledMessage claim claimant amount ≠ settledMessage claim claimant' amount' := by
  have htext (amount : Nat) : IsAmount (amountText amount).toList amount := isAmount_iff.2 rfl
  refine ⟨?_, ?_⟩
  · intro claimant amount
    refine ⟨amountText amount, settledMessage_eq claim claimant amount, htext amount, ?_⟩
    intro amount' h
    exact h.unique (htext amount)
  · intro claimant claimant' amount amount' hne h
    rw [settledMessage_eq, settledMessage_eq] at h
    exact hne (amountText_injective (String.append_right_inj _ |>.1 h))

/-- Seven cents and seven dollars. -/
theorem sevens_are_told_apart :
    7 ≠ 700 ∧
    settledMessage ⟨"claim-1"⟩ ⟨"user-1"⟩ 7 =
      settledOpening ⟨"claim-1"⟩ ++ "Amount: $" ++ "0.07" ∧
    settledMessage ⟨"claim-1"⟩ ⟨"user-1"⟩ 700 =
      settledOpening ⟨"claim-1"⟩ ++ "Amount: $" ++ "7.00" ∧
    settledMessage ⟨"claim-1"⟩ ⟨"user-1"⟩ 7 ≠ settledMessage ⟨"claim-1"⟩ ⟨"user-1"⟩ 700 := by
  have hne : 7 ≠ 700 := by decide
  have hcents : amountText 7 = "0.07" := by decide
  have hdollars : amountText 700 = "7.00" := by decide
  refine ⟨hne, ?_, ?_, ?_⟩
  · rw [settledMessage_eq, hcents]
  · rw [settledMessage_eq, hdollars]
  · exact (settled_amount_isExact ⟨"claim-1"⟩).2 ⟨"user-1"⟩ ⟨"user-1"⟩ 7 700 hne

end PolicyBook.Notification
