import Mathlib.Algebra.BigOperators.Group.List.Basic
import Mathlib.Algebra.GroupWithZero.Nat
import Mathlib.Data.List.Dedup
import PolicyBook.Rollup
/-!
Figures do not depend on how the records are arranged.

A total that stays at its limit once it gets there is the exact total, cut off at the limit: cutting
off early, often or once makes no difference. So it matters neither in which order premiums are
added nor whether they are added holder by holder first. Counts are sums of ones, and what holds of
sums holds of them as well.

* **`cappedSum_eq`** — a capped sum is the exact sum, cut off once;
* **`cappedSum_capped`** — nor does it matter if the amounts were cut off before;
* **`sum_by_key`** — a sum made up key by key is the sum of the whole;
* **`Dashboard.isTally_ofRecords`** — the figures of a portfolio, for every list of records.
-/
namespace PolicyBook

open Policy Text

/-! ### Capped sums -/

theorem foldl_capped_eq (start : Nat) (amounts : List Nat) :
    amounts.foldl (fun sum n => min (sum + n) maxWord) (min start maxWord) =
      min (start + amounts.sum) maxWord := by
  induction amounts generalizing start with
  | nil => rfl
  | cons n rest ih =>
    have hfirst : min (min start maxWord + n) maxWord = min (start + n) maxWord := by omega
    rw [List.foldl_cons, hfirst, ih, List.sum_cons, Nat.add_assoc]

theorem cappedSum_eq (amounts : List Nat) : cappedSum amounts = min amounts.sum maxWord := by
  have h := foldl_capped_eq 0 amounts
  rwa [Nat.zero_min, Nat.zero_add] at h

/-- It makes no difference if amounts were cut off before they are summed. -/
theorem cappedSum_capped (amounts : List Nat) :
    cappedSum (amounts.map fun n => min n maxWord) = cappedSum amounts := by
  rw [cappedSum_eq, cappedSum_eq]
  induction amounts with
  | nil => rfl
  | cons n rest ih =>
    rw [List.map_cons, List.sum_cons, List.sum_cons]
    omega

theorem cappedSum_perm {xs ys : List Nat} (h : xs.Perm ys) : cappedSum xs = cappedSum ys := by
  rw [cappedSum_eq, cappedSum_eq, h.sum_eq]

/-! ### Sums key by key -/

section

variable {α κ : Type} [DecidableEq κ] {key : α → κ}

theorem sum_map_ite_key {keys : List κ} (hkeys : keys.Nodup) (k : κ) (amount : Nat) :
    (keys.map fun j => if k = j then amount else 0).sum = if k ∈ keys then amount else 0 := by
  induction keys with
  | nil => rfl
  | cons j rest ih =>
    obtain ⟨hnot, hrest⟩ := List.nodup_cons.1 hkeys
    rw [List.map_cons, List.sum_cons, ih hrest]
    by_cases hk : k = j
    · subst hk
      simp [hnot]
    · simp [hk]

/-- A sum made up key by key is the sum of the whole, if no key is missing and none is repeated. -/
theorem sum_by_key {keys : List κ} (hkeys : keys.Nodup) (amount : α → Nat) {xs : List α}
    (hall : ∀ x ∈ xs, key x ∈ keys) :
    (keys.map fun k => ((xs.filter fun x => key x = k).map amount).sum).sum =
      (xs.map amount).sum := by
  induction xs with
  | nil => simp
  | cons x rest ih =>
    obtain ⟨hx, hrest⟩ := List.forall_mem_cons.1 hall
    have hsplit (k : κ) : (((x :: rest).filter fun y => key y = k).map amount).sum =
        (if key x = k then amount x else 0) +
          ((rest.filter fun y => key y = k).map amount).sum := by
      by_cases h : key x = k <;> simp [h]
    simp only [hsplit]
    rw [List.sum_map_add, sum_map_ite_key hkeys, if_pos hx, ih hrest, List.map_cons, List.sum_cons]

theorem length_by_key {keys : List κ} (hkeys : keys.Nodup) {xs : List α}
    (hall : ∀ x ∈ xs, key x ∈ keys) :
    (keys.map fun k => (xs.filter fun x => key x = k).length).sum = xs.length := by
  simpa using sum_by_key hkeys (fun _ => 1) hall

end

/-! ### Portfolios -/

def inForce (records : List Record) : List Record := records.filter Record.isInForce

def holders (records : List Record) : List HolderId := (records.map Record.holder).dedup

theorem holder_mem_holders {records : List Record} {r : Record} (h : r ∈ inForce records) :
    r.holder ∈ holders records :=
  List.mem_dedup.2 (List.mem_map_of_mem (List.mem_filter.1 h).1)

theorem length_inForce (records : List Record) :
    (inForce records).length =
      records.countP (fun r => r.state = .active) + records.countP fun r => r.state = .renewed := by
  rw [inForce, ← List.countP_eq_length_filter]
  induction records with
  | nil => rfl
  | cons r rest ih =>
    rw [List.countP_cons, List.countP_cons, List.countP_cons, ih]
    cases hstate : r.state <;> simp [Record.isInForce, State.isInForce, hstate] <;> omega

theorem filter_holder_inForce (holder : HolderId) (records : List Record) :
    (records.filter fun r => r.holder = holder && r.isInForce) =
      (inForce records).filter fun r => r.holder = holder := by
  rw [inForce, List.filter_filter]

theorem Dashboard.ofRecords_perm {records records' : List Record} (h : records'.Perm records) :
    Dashboard.ofRecords records' = Dashboard.ofRecords records := by
  have hforce := h.filter Record.isInForce
  simp only [Dashboard.ofRecords, Dashboard.mk.injEq]
  refine ⟨h.length_eq, ?_, hforce.length_eq, cappedSum_perm (hforce.map _)⟩
  simp only [h.countP_eq]

/-- The premiums of the whole portfolio and those of its holders are cut off at one limit. -/
theorem cappedSum_by_holder (records : List Record) :
    cappedSum ((inForce records).map Record.premium) =
      cappedSum ((holders records).map fun h => (Holding.ofRecords h records).activePremium) := by
  -- what the premiums of a holder would add up to without the limit
  let exact (h : HolderId) : Nat :=
    (((inForce records).filter fun r => r.holder = h).map Record.premium).sum
  have hholding (h : HolderId) :
      (Holding.ofRecords h records).activePremium = min (exact h) maxWord := by
    simp only [Holding.ofRecords, filter_holder_inForce]
    exact cappedSum_eq _
  have hwhole : ((holders records).map exact).sum = ((inForce records).map Record.premium).sum :=
    sum_by_key (List.nodup_dedup _) Record.premium fun _ => holder_mem_holders
  calc cappedSum ((inForce records).map Record.premium)
      = cappedSum ((holders records).map exact) := by rw [cappedSum_eq, cappedSum_eq, hwhole]
    _ = cappedSum (((holders records).map exact).map fun n => min n maxWord) :=
        (cappedSum_capped _).symm
    _ = cappedSum ((holders records).map fun h => (Holding.ofRecords h records).activePremium) := by
        simp only [List.map_map, hholding]
        rfl

/-- The figures of a portfolio, told from its records without an order. -/
structure Dashboard.IsTally (dashboard : Dashboard) (records : List Record) : Prop where
  /-- Another order of the records makes no difference. -/
  unordered : ∀ records' : List Record, records'.Perm records →
    Dashboard.ofRecords records' = dashboard
  /-- Every record counts. -/
  total_eq : dashboard.total = records.length
  /-- Every state has a count, which is that of the records in it. -/
  states : ∀ s, dashboard.byState.get s = some (records.countP fun r => r.state = s)
  /-- The counts of all states add up. -/
  sum_states : (State.all.map fun s => (dashboard.byState.get s).getD 0).sum = dashboard.total
  /-- Those policies give cover that are active or renewed. -/
  active_eq : ∃ active renewed, dashboard.byState.active = some active ∧
    dashboard.byState.renewed = some renewed ∧ dashboard.active = active + renewed
  /-- Their premiums are added up exactly, as far as sixty-four bits go. -/
  premium_eq : dashboard.activePremium =
    min ((records.filter fun r => r.state = .active ∨ r.state = .renewed).map
      Record.premium).sum maxWord
  /-- The policies that give cover add up holder by holder. -/
  active_holders : dashboard.active =
    ((records.map Record.holder).dedup.map fun h => (Holding.ofRecords h records).active).sum
  /-- So do their premiums, as far as sixty-four bits go. -/
  premium_holders : dashboard.activePremium =
    min ((records.map Record.holder).dedup.map fun h =>
      (Holding.ofRecords h records).activePremium).sum maxWord

/-- Whatever the records of a portfolio are, its figures are told without their order. -/
theorem Dashboard.isTally_ofRecords (records : List Record) :
    (Dashboard.ofRecords records).IsTally records where
  unordered _ h := ofRecords_perm h
  total_eq := rfl
  states s := StateCounts.get_ofFn _ s
  sum_states := by
    have hall : ∀ r ∈ records, r.state ∈ State.all := fun r _ => State.mem_all r.state
    simp only [Dashboard.ofRecords, StateCounts.get_ofFn, Option.getD_some,
      List.countP_eq_length_filter]
    exact length_by_key (by decide) hall
  active_eq := ⟨_, _, rfl, rfl, length_inForce records⟩
  premium_eq := by
    have hforce : (records.filter fun r => r.state = .active ∨ r.state = .renewed) =
        inForce records :=
      List.filter_congr fun r _ => by
        rw [Bool.decide_or, ← beq_eq_decide, ← beq_eq_decide]
        rfl
    rw [hforce]
    exact cappedSum_eq _
  active_holders := by
    simp only [Holding.ofRecords, filter_holder_inForce]
    exact (length_by_key (List.nodup_dedup _) fun _ => holder_mem_holders).symm
  premium_holders := by
    rw [← holders, ← cappedSum_eq]
    exact cappedSum_by_holder records

end PolicyBook
