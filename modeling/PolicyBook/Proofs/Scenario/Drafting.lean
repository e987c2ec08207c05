import Mathlib.Data.List.Nodup
import PolicyBook.Proofs.History
import PolicyBook.Proofs.OneStory
import PolicyBook.Proofs.SharedStore
import PolicyBook.Scenario.Run
/-!
Drafting the policies of a scenario.

The declared policies are drafted one after the other, under the identifiers that come next. Nobody
is told, and nothing is cached. If no key is declared twice and no two identifiers are equal, then
all of them are drafted; otherwise the run ends here.

* **`draftAll_cons_cases`** — what the first draft comes to;
* **`draftAll_isOk_iff`** — when all policies can be drafted;
* **`drafts_of_draftAll`** — what is in the book then, and what the keys stand for.
-/
namespace PolicyBook

open Policy

def Supply.policyId (supply : Supply) (n : Nat) : PolicyId := ⟨supply.id n⟩

namespace Scenario

variable {σ : Type} {office : Office σ} {supply : Supply} {drafted : Nat}
  {declarations : List Declaration} {keys known : Keys} {book next : Book σ}

/-- The first record of a declared policy; beside the declaration stands its number. -/
def draftOf (supply : Supply) (d : Declaration × Nat) : Record :=
  .draft (supply.policyId d.2) d.1.holder d.1.premium (supply.now d.2)

def declaredAmong? (declarations : List (Declaration × Nat)) (key : String) :
    Option (Declaration × Nat) :=
  declarations.find? fun d => d.1.key = key

theorem of_declaredAmong? {declarations : List (Declaration × Nat)} {key : String}
    {d : Declaration × Nat} (h : declaredAmong? declarations key = some d) :
    d ∈ declarations ∧ d.1.key = key :=
  ⟨List.mem_of_find?_eq_some h, by simpa using List.find?_some h⟩

def declaredKeys (scenario : Scenario) : List String := scenario.policies.map Declaration.key

theorem map_key_zipIdx (scenario : Scenario) :
    (scenario.policies.zipIdx.map fun d => d.1.key) = declaredKeys scenario := by
  show scenario.policies.zipIdx.map (Declaration.key ∘ Prod.fst) = _
  rw [← List.map_map, List.zipIdx_map_fst]
  rfl

theorem declaredAmong?_eq_none_iff {scenario : Scenario} {key : String} :
    declaredAmong? scenario.policies.zipIdx key = none ↔ key ∉ declaredKeys scenario := by
  rw [← map_key_zipIdx, declaredAmong?, List.find?_eq_none, List.mem_map]
  simp

theorem exists_declaredAmong? {scenario : Scenario} {key : String}
    (h : key ∈ declaredKeys scenario) :
    ∃ d, declaredAmong? scenario.policies.zipIdx key = some d :=
  Option.ne_none_iff_exists'.1 fun hnone => declaredAmong?_eq_none_iff.1 hnone h

theorem declaredAmong?_of_mem {scenario : Scenario} (hkeys : scenario.HasDistinctKeys)
    {d : Declaration × Nat} (h : d ∈ scenario.policies.zipIdx) :
    declaredAmong? scenario.policies.zipIdx d.1.key = some d := by
  have hmem : d.1.key ∈ declaredKeys scenario :=
    List.mem_map_of_mem (List.fst_mem_of_mem_zipIdx h)
  obtain ⟨d', hfound⟩ := exists_declaredAmong? hmem
  obtain ⟨hmem', hkey⟩ := of_declaredAmong? hfound
  -- two declarations of one key are one declaration
  have hnodup : (scenario.policies.zipIdx.map fun d => d.1.key).Nodup :=
    map_key_zipIdx scenario ▸ hkeys
  rw [hfound, List.inj_on_of_nodup_map hnodup hmem' h hkey]

/-- What drafting has done that went through. -/
structure Drafts (office : Office σ) (supply : Supply) (declarations : List (Declaration × Nat))
    (keys : Keys) (book : Book σ) (known : Keys) (next : Book σ) : Prop where
  records_eq : next.store.records = book.store.records ++ declarations.map (draftOf supply)
  get?_eq : ∀ key, known.get? key =
    ((declaredAmong? declarations key).map fun d => supply.policyId d.2).or (keys.get? key)
  advances : Book.Advances office book [] next
  uncached : book.cache.get? office.dashboardKey = none →
    next.cache.get? office.dashboardKey = none

/-- The key is declared again, the identifier is taken, or the draft is put behind the other
records. -/
theorem draftAll_cons_cases (office : Office σ) (supply : Supply) (drafted : Nat) (d : Declaration)
    (rest : List Declaration) (keys : Keys) (book : Book σ) :
    (keys.get? d.key ≠ none ∧
        draftAll office supply drafted (d :: rest) keys book = .error (.repeatedKey d.key)) ∨
      (supply.policyId drafted ∈ book.store.records.map Record.id ∧
        ∃ failure, draftAll office supply drafted (d :: rest) keys book =
          .error (.undrafted failure)) ∨
      (keys.get? d.key = none ∧
        ∃ store, book.store.insert (draftOf supply (d, drafted)) = .ok store ∧
          store.records = book.store.records ++ [draftOf supply (d, drafted)] ∧
          draftAll office supply drafted (d :: rest) keys book =
            draftAll office supply (drafted + 1) rest (keys.set d.key (supply.policyId drafted))
              (office.invalidate { book with store })) := by
  by_cases hknown : (keys.get? d.key).isSome
  · rw [draftAll, if_pos hknown]
    exact .inl ⟨fun hnone => by simp [hnone] at hknown, rfl⟩
  rw [draftAll, if_neg hknown, Office.create]
  rcases book.store.insert_cases (draftOf supply (d, drafted)) with
    ⟨store, hinsert, hrecords⟩ | ⟨htaken, hinsert⟩
  · refine .inr (.inr ⟨Option.not_isSome_iff_eq_none.1 hknown, store, hinsert, hrecords, ?_⟩)
    simp only [draftOf, Supply.policyId] at hinsert
    simp only [hinsert]
    rfl
  · refine .inr (.inl ⟨htaken, .store (.taken (supply.policyId drafted)), ?_⟩)
    simp only [draftOf, Supply.policyId] at hinsert
    simp only [hinsert]
    rfl

theorem unknown_set_iff {d : Declaration} {rest : List Declaration} {id : PolicyId}
    (hnone : keys.get? d.key = none) :
    ((rest.map Declaration.key).Nodup ∧
        ∀ other ∈ rest, (keys.set d.key id).get? other.key = none) ↔
      ((d :: rest).map Declaration.key).Nodup ∧
        ∀ other ∈ d :: rest, keys.get? other.key = none := by
  simp only [List.map_cons, List.nodup_cons, List.forall_mem_cons, Assoc.get?_set]
  constructor
  · rintro ⟨hnodup, hunknown⟩
    have hother (other) (hmem : other ∈ rest) : other.key ≠ d.key := by
      intro heq
      have := hunknown other hmem
      rw [if_pos heq] at this
      exact absurd this (by simp)
    refine ⟨⟨fun hmem => ?_, hnodup⟩, hnone, fun other hmem => ?_⟩
    · obtain ⟨other, hrest, heq⟩ := List.mem_map.1 hmem
      exact hother other hrest heq
    · have := hunknown other hmem
      rwa [if_neg (hother other hmem)] at this
  · rintro ⟨⟨hfresh, hnodup⟩, -, hunknown⟩
    refine ⟨hnodup, fun other hmem => ?_⟩
    rw [if_neg fun heq => hfresh (List.mem_map.2 ⟨other, hmem, heq⟩)]
    exact hunknown other hmem

/-- All policies can be drafted exactly when no key is declared twice, no declared key is known
already, and all identifiers differ. -/
theorem draftAll_isOk_iff :
    (∃ known next, draftAll office supply drafted declarations keys book = .ok (known, next)) ↔
      (declarations.map Declaration.key).Nodup ∧
      (∀ d ∈ declarations, keys.get? d.key = none) ∧
      (book.store.records.map Record.id ++
        (declarations.zipIdx drafted).map fun d => supply.policyId d.2).Nodup := by
  induction declarations generalizing drafted keys book with
  | nil =>
    refine ⟨fun _ => ⟨List.nodup_nil, by simp, ?_⟩, fun _ => ⟨keys, book, rfl⟩⟩
    simpa using book.store.distinct
  | cons d rest ih =>
    rcases draftAll_cons_cases office supply drafted d rest keys book with
      ⟨hknown, hdraft⟩ | ⟨htaken, failure, hdraft⟩ | ⟨hnone, store, -, hrecords, hdraft⟩
    · rw [hdraft]
      constructor
      · rintro ⟨_, _, h⟩
        exact absurd h (by simp)
      · rintro ⟨-, hnone, -⟩
        exact absurd (hnone d List.mem_cons_self) hknown
    · rw [hdraft]
      constructor
      · rintro ⟨_, _, h⟩
        exact absurd h (by simp)
      · rintro ⟨-, -, hids⟩
        rw [List.zipIdx_cons, List.map_cons] at hids
        exact absurd rfl ((List.nodup_append.1 hids).2.2 _ htaken _ List.mem_cons_self)
    · have hids : (office.invalidate { book with store }).store.records.map Record.id ++
          (rest.zipIdx (drafted + 1)).map (fun d => supply.policyId d.2) =
          book.store.records.map Record.id ++
            ((d :: rest).zipIdx drafted).map fun d => supply.policyId d.2 := by
        show store.records.map Record.id ++ _ = _
        rw [hrecords, List.map_append, List.append_assoc, List.zipIdx_cons]
        rfl
      rw [hdraft, ih, hids, ← and_assoc, unknown_set_iff hnone, and_assoc]

theorem drafts_of_draftAll
    (h : draftAll office supply drafted declarations keys book = .ok (known, next)) :
    Drafts office supply (declarations.zipIdx drafted) keys book known next := by
  induction declarations generalizing drafted keys book with
  | nil =>
    obtain ⟨rfl, rfl⟩ := Prod.mk.inj (Except.ok.inj h)
    exact ⟨by simp, by simp [declaredAmong?], .of_silent rfl rfl fun _ => rfl, id⟩
  | cons d rest ih =>
    rcases draftAll_cons_cases office supply drafted d rest keys book with
      ⟨-, hdraft⟩ | ⟨-, failure, hdraft⟩ | ⟨-, store, hinsert, hrecords, hdraft⟩
    · exact absurd (hdraft.symm.trans h) (by simp)
    · exact absurd (hdraft.symm.trans h) (by simp)
    have hok := hdraft.symm.trans h
    have hrest := ih hok
    have hfirst : Book.Advances office book [] (office.invalidate { book with store }) := by
      have hcreate := Call.alone_tells office
        (.create ⟨supply.id drafted⟩ d.holder d.premium (supply.now drafted)) book
      simp only [Call.alone, Office.create] at hcreate
      rw [show book.store.insert (.draft ⟨supply.id drafted⟩ d.holder d.premium
        (supply.now drafted)) = .ok store from hinsert] at hcreate
      exact hcreate
    constructor
    case records_eq =>
      rw [hrest.records_eq]
      show store.records ++ _ = _
      rw [hrecords, List.zipIdx_cons, List.map_cons, List.append_assoc]
      rfl
    case get?_eq =>
      intro key
      -- no later declaration is of the key of this one
      obtain ⟨-, hunknown, -⟩ := draftAll_isOk_iff.1 ⟨_, _, hok⟩
      have hlater (hkey : d.key = key) : declaredAmong? (rest.zipIdx (drafted + 1)) key = none := by
        refine List.find?_eq_none.2 fun other hmem heq => ?_
        have hother := hunknown other.1 (List.fst_mem_of_mem_zipIdx hmem)
        rw [Assoc.get?_set, if_pos ((of_decide_eq_true heq).trans hkey.symm)] at hother
        exact absurd hother (by simp)
      rw [hrest.get?_eq, Assoc.get?_set, List.zipIdx_cons]
      by_cases hkey : d.key = key
      · rw [hlater hkey, if_pos hkey.symm, declaredAmong?, List.find?_cons_of_pos (by simpa)]
        rfl
      · rw [if_neg (Ne.symm hkey), declaredAmong?, declaredAmong?,
          List.find?_cons_of_neg (by simpa)]
    case advances => exact hfirst.trans hrest.advances
    case uncached =>
      intro _
      refine hrest.uncached ?_
      exact (Cache.get?_invalidate _ _ _).trans (if_pos rfl)

/-! ### Keys and records -/

def recordOf? (keys : Keys) (book : Book σ) (key : String) : Option Record :=
  (keys.get? key).bind book.store.find?

/-- What is true of keys and records from the last draft on. -/
structure AreKept (table : Table) (keys : Keys) (book : Book σ) : Prop where
  injective : ∀ {key other id}, keys.get? key = some id → keys.get? other = some id → key = other
  recorded : ∀ {key id}, keys.get? key = some id →
    ∃ r, book.store.find? id = some r ∧ r.IsHistory table

theorem AreKept.history {table : Table} (h : AreKept table keys book) {key : String} {r : Record}
    (hr : recordOf? keys book key = some r) : r.IsHistory table := by
  obtain ⟨id, hkey, hfound⟩ := Option.bind_eq_some_iff.1 hr
  obtain ⟨kept, hkept, hhistory⟩ := h.recorded hkey
  rwa [Option.some_inj.1 (hfound.symm.trans hkept)]

theorem map_policyId_zipIdx (supply : Supply) (declarations : List Declaration) :
    (declarations.zipIdx.map fun d => supply.policyId d.2) =
      (List.range declarations.length).map supply.policyId := by
  show declarations.zipIdx.map (supply.policyId ∘ Prod.snd) = _
  rw [← List.map_map, List.zipIdx_map_snd, List.range_eq_range']

theorem nodup_policyId_iff {supply : Supply} {n : Nat} :
    ((List.range n).map supply.policyId).Nodup ↔ supply.IsFresh n := by
  rw [List.nodup_map_iff_inj_on List.nodup_range]
  constructor
  · intro h i hi j hj heq
    exact h i (List.mem_range.2 hi) j (List.mem_range.2 hj) (congrArg PolicyId.mk heq)
  · intro h i hi j hj heq
    exact h i (List.mem_range.1 hi) j (List.mem_range.1 hj) (congrArg PolicyId.uuid heq)

theorem draftAll_new_isOk_iff (desk : σ) (hkeys : (declarations.map Declaration.key).Nodup) :
    (∃ known next, draftAll office supply 0 declarations .empty (.new desk) = .ok (known, next)) ↔
      supply.IsFresh declarations.length := by
  rw [draftAll_isOk_iff, ← nodup_policyId_iff, ← map_policyId_zipIdx]
  exact ⟨fun h => h.2.2, fun h => ⟨hkeys, fun _ _ => rfl, h⟩⟩

section

variable {desk : σ}
  (h : draftAll office supply 0 declarations .empty (.new desk) = .ok (known, next))

include h

/-- A key that was declared stands for the draft of its policy, and any other for nothing. -/
theorem recordOf?_of_draftAll (key : String) :
    recordOf? known next key =
      (declaredAmong? declarations.zipIdx key).map (draftOf supply) := by
  have hdrafts := drafts_of_draftAll h
  rw [recordOf?, hdrafts.get?_eq, Assoc.get?_empty, Option.or_none]
  cases hd : declaredAmong? declarations.zipIdx key with
  | none => rfl
  | some d =>
    have hmem : draftOf supply d ∈ next.store.records := by
      rw [hdrafts.records_eq]
      exact List.mem_append_right _ (List.mem_map_of_mem (of_declaredAmong? hd).1)
    exact Store.mem_records_iff.1 hmem

theorem areKept_of_draftAll (table : Table) : AreKept table known next := by
  have hget (key : String) :
      known.get? key = (declaredAmong? declarations.zipIdx key).map fun d => supply.policyId d.2 :=
    ((drafts_of_draftAll h).get?_eq key).trans (Option.or_none)
  constructor
  case injective =>
    intro key other id hkey hother
    obtain ⟨d, hd, hid⟩ := Option.map_eq_some_iff.1 ((hget key).symm.trans hkey)
    obtain ⟨d', hd', hid'⟩ := Option.map_eq_some_iff.1 ((hget other).symm.trans hother)
    -- two declarations whose policies have one identifier are one declaration
    obtain ⟨-, -, hids⟩ := draftAll_isOk_iff.1 ⟨_, _, h⟩
    obtain ⟨hmem, rfl⟩ := of_declaredAmong? hd
    obtain ⟨hmem', rfl⟩ := of_declaredAmong? hd'
    rw [List.inj_on_of_nodup_map (List.nodup_append.1 hids).2.1 hmem hmem' (hid.trans hid'.symm)]
  case recorded =>
    intro key id hkey
    obtain ⟨d, hd, rfl⟩ := Option.map_eq_some_iff.1 ((hget key).symm.trans hkey)
    have hrecord := recordOf?_of_draftAll h key
    rw [hd, recordOf?, hkey] at hrecord
    exact ⟨_, hrecord, Record.isHistory_draft _ _ _ _ _⟩

end

end Scenario

end PolicyBook
