import Mathlib.Data.List.Nodup
import Mathlib.Data.Nat.Init
import PolicyBook.Policy.Calls
import PolicyBook.Proofs.Handles
import PolicyBook.Proofs.Interleaving.Growth
/-!
Optimistic saving in a shared store.

A program uses stores through any number of handles and presents what records it likes: old ones,
altered ones, records with invented versions. Through whichever handles a store is used, what is
asked of it makes one history. In it a record never disappears, its version counts the saves, and a
version never stands for two records; so a save that goes back to a load goes through only while
nothing else was saved.

* **`Sharing.answer_of_call`**, **`Sharing.contents_succ`** — the history of a store;
* **`Sharing.find?_succ`** — what one moment does to a record;
* **`Sharing.find?_later`** — what any number of moments do to it;
* **`Sharing.isOptimistic`** — all of this for every program, every store and all moments.
-/
namespace PolicyBook.Policy

namespace Store

theorem mem_records_iff {store : Store} {r : Record} :
    r ∈ store.records ↔ store.find? r.id = some r := by
  constructor
  · intro hr
    cases hfound : store.find? r.id with
    | none => exact absurd (List.mem_map_of_mem hr) (find?_eq_none_iff.1 hfound)
    | some other =>
      -- two records of one policy are one record
      have hother := List.mem_of_find?_eq_some hfound
      rw [List.inj_on_of_nodup_map store.distinct hother hr (id_of_find? hfound)]
  · intro hfound
    exact List.mem_of_find?_eq_some hfound

theorem mem_list_iff {store : Store} {r : Record} :
    r ∈ store.list ↔ store.find? r.id = some r := by
  rw [list, (ordered_perm _ _).mem_iff, mem_records_iff]

theorem find?_list (store : Store) (id : PolicyId) :
    (store.list.find? fun r => r.id = id) = store.find? id := by
  cases hlisted : store.list.find? fun r => r.id = id with
  | none =>
    have hnone := List.find?_eq_none.1 hlisted
    symm
    rw [find?_eq_none_iff]
    intro hmem
    obtain ⟨r, hr, hid⟩ := List.mem_map.1 hmem
    exact hnone r (mem_list_iff.2 (mem_records_iff.1 hr)) (by simpa using hid)
  | some r =>
    have hid : r.id = id := by simpa using List.find?_some hlisted
    rw [← hid]
    exact (mem_list_iff.1 (List.mem_of_find?_eq_some hlisted)).symm

theorem nodup_list (store : Store) : store.list.Nodup :=
  (ordered_perm _ _).nodup_iff.2 (List.Nodup.of_map _ store.distinct)

theorem insert_cases (store : Store) (r : Record) :
    (∃ after, store.insert r = .ok after ∧ after.records = store.records ++ [r]) ∨
      (r.id ∈ store.records.map Record.id ∧ store.insert r = .error (.taken r.id)) := by
  unfold insert
  split
  · exact .inl ⟨_, rfl, rfl⟩
  · next hsome =>
    rw [find?_eq_none_iff, not_not] at hsome
    exact .inr ⟨hsome, rfl⟩

theorem map_id_of_save {store after : Store} {r kept : Record}
    (h : store.save r = .ok (kept, after)) :
    after.records.map Record.id = store.records.map Record.id := by
  unfold save at h
  split at h
  · exact absurd h (by simp)
  · split at h
    · rw [← (Prod.mk.inj (Except.ok.inj h)).2]
      exact map_id_exchange _ _
    · exact absurd h (by simp)

theorem Call.on_insert (store : Store) (r : Record) :
    (store.find? r.id = none ∧ ((insert r).on store).1 = .ok (.record r) ∧
      ∀ id, ((insert r).on store).2.find? id = if id = r.id then some r else store.find? id) ∨
    (store.find? r.id ≠ none ∧ (insert r).on store = (.error (.taken r.id), store)) := by
  by_cases h : store.find? r.id = none
  · obtain ⟨next, hinsert⟩ : ∃ next, store.insert r = .ok next := ⟨_, dif_pos h⟩
    refine .inl ⟨h, ?_, fun id => ?_⟩
    · simp only [on, hinsert]
    · simp only [on, hinsert]
      exact find?_insert hinsert id
  · have hinsert : store.insert r = .error (.taken r.id) := dif_neg h
    exact .inr ⟨h, by simp only [on, hinsert]⟩

theorem Call.on_save (store : Store) (r : Record) :
    ((∃ stored, store.find? r.id = some stored ∧ stored.version = r.version) ∧
      ((save r).on store).1 = .ok (.record { r with version := r.version + 1 }) ∧
      ∀ id, ((save r).on store).2.find? id =
        if id = r.id then some { r with version := r.version + 1 } else store.find? id) ∨
    ((¬ ∃ stored, store.find? r.id = some stored ∧ stored.version = r.version) ∧
      ∃ fault, (save r).on store = (.error fault, store)) := by
  cases hsave : store.save r with
  | ok saved =>
    obtain ⟨kept, next⟩ := saved
    obtain ⟨stored, hfound, hversion, rfl⟩ := save_eq_ok hsave
    refine .inl ⟨⟨stored, hfound, hversion⟩, ?_, fun id => ?_⟩
    · simp only [on, hsave]
    · simp only [on, hsave]
      exact find?_save hsave id
  | error fault =>
    refine .inr ⟨?_, fault, by simp only [on, hsave]⟩
    rintro ⟨stored, hfound, hversion⟩
    obtain ⟨saved, hok⟩ := save_isOk hfound hversion
    exact absurd (hsave.symm.trans hok) (by simp)

theorem Call.on_of_error {call : Call} {store : Store} {fault : StoreFault}
    (h : (call.on store).1 = .error fault) : (call.on store).2 = store := by
  cases call with
  | insert r =>
    rcases on_insert store r with ⟨-, hok, -⟩ | ⟨-, hfails⟩
    · exact absurd (h.symm.trans hok) (by simp)
    · rw [hfails]
  | save r =>
    rcases on_save store r with ⟨-, hok, -⟩ | ⟨-, fault', hfails⟩
    · exact absurd (h.symm.trans hok) (by simp)
    · rw [hfails]
  | load id => rfl
  | list => rfl

end Store

/-! ### Programs -/

open Handles

/-- A program that uses stores through handles. -/
structure Sharing where
  uses : Nat → Use Store.Call

namespace Sharing

variable (program : Sharing)

/-- The memory at a moment. Every store is created empty. -/
def memory : Nat → Memory Store
  | 0 => .before fun _ => .empty
  | n + 1 => ((program.uses n).on Store.Call.on (memory n)).2

def place? (n handle : Nat) : Option Nat := (program.memory n).handles[handle]?

def contents (place n : Nat) : Store := (program.memory n).things place

def call? (place n : Nat) : Option Store.Call := (program.uses n).call? (program.memory n) place

def answer? (n : Nat) : Option (Except StoreFault Store.Answer) :=
  ((program.uses n).on Store.Call.on (program.memory n)).1

/-- At a moment, a load shows this record. -/
def Loads (place n : Nat) (r : Record) : Prop :=
  program.call? place n = some (.load r.id) ∧ program.answer? n = some (.ok (.record r))

def saves (place : Nat) (id : PolicyId) (n : Nat) : Bool :=
  match program.call? place n, program.answer? n with
  | some (.save r), some (.ok _) => r.id = id
  | _, _ => false

/-- How often a record of the policy is saved from one moment on and before another. -/
def saveCount (place : Nat) (id : PolicyId) (m n : Nat) : Nat :=
  (List.range' m (n - m)).countP (program.saves place id)

variable {program}

/-! ### The history of one store -/

/-- A store is changed by what it is asked, and by nothing else. -/
theorem contents_succ (place n : Nat) :
    program.contents place (n + 1) =
      (program.call? place n).toList.foldl (fun store call => (call.on store).2)
        (program.contents place n) :=
  things_on (program.uses n) (program.memory n) place

theorem answer_of_call {place n : Nat} {call : Store.Call}
    (h : program.call? place n = some call) :
    program.answer? n = some (call.on (program.contents place n)).1 ∧
      program.contents place (n + 1) = (call.on (program.contents place n)).2 := by
  refine ⟨?_, ?_⟩
  · obtain ⟨handle, huse, hplace⟩ := Use.call?_eq_some_iff.1 h
    rw [answer?, huse, ask_on hplace]
    rfl
  · rw [contents_succ, h]
    rfl

theorem contents_succ_of_none {place n : Nat} (h : program.call? place n = none) :
    program.contents place (n + 1) = program.contents place n := by
  rw [contents_succ, h]
  rfl

theorem place?_succ {n handle place : Nat} (h : program.place? n handle = some place) :
    program.place? (n + 1) handle = some place :=
  getElem?_handles_on h (program.uses n)

theorem place?_clone {n handle place : Nat} (huse : program.uses n = .clone handle)
    (h : program.place? n handle = some place) :
    program.place? (n + 1) (program.memory n).handles.length = some place := by
  show ((program.uses n).on Store.Call.on (program.memory n)).2.handles[_]? = some place
  rw [huse]
  exact clone_handles h

/-! ### Records -/

/-- At one moment a record stays as it is, unless a record of its policy is saved: then the version
rises by one. -/
theorem find?_succ {place n : Nat} {id : PolicyId} {r : Record}
    (h : (program.contents place n).find? id = some r) :
    (program.saves place id n = false ∧ (program.contents place (n + 1)).find? id = some r) ∨
    (program.saves place id n = true ∧
      ∃ next, (program.contents place (n + 1)).find? id = some next ∧
        next.version = r.version + 1) := by
  unfold saves
  cases hcall : program.call? place n with
  | none => exact .inl ⟨rfl, by rw [contents_succ_of_none hcall]; exact h⟩
  | some call =>
    obtain ⟨hanswer, hnext⟩ := answer_of_call hcall
    rw [hnext, hanswer]
    cases call with
    | load other => exact .inl ⟨rfl, h⟩
    | list => exact .inl ⟨rfl, h⟩
    | insert x =>
      refine .inl ⟨rfl, ?_⟩
      rcases Store.Call.on_insert (program.contents place n) x with
        ⟨habsent, -, hfind⟩ | ⟨-, hfails⟩
      · -- nothing is inserted where there is a record
        have hne : id ≠ x.id := by
          rintro rfl
          exact absurd (habsent.symm.trans h) (by simp)
        rw [hfind, if_neg hne, h]
      · rw [hfails]
        exact h
    | save x =>
      rcases Store.Call.on_save (program.contents place n) x with
        ⟨⟨stored, hfound, hversion⟩, hok, hfind⟩ | ⟨-, fault, hfails⟩
      · rw [hok, hfind]
        by_cases hid : id = x.id
        · subst hid
          obtain rfl := Option.some_inj.1 (hfound.symm.trans h)
          exact .inr ⟨by simp, _, if_pos rfl, by rw [hversion]⟩
        · exact .inl ⟨by simpa using Ne.symm hid, by rw [if_neg hid]; exact h⟩
      · rw [hfails]
        exact .inl ⟨rfl, h⟩

theorem saveCount_succ {place : Nat} {id : PolicyId} {m n : Nat} (h : m ≤ n) :
    program.saveCount place id m (n + 1) =
      program.saveCount place id m n + if program.saves place id n then 1 else 0 := by
  rw [saveCount, show n + 1 - m = (n - m) + 1 by omega, List.range'_1_concat, List.countP_append,
    show m + (n - m) = n by omega, List.countP_singleton, saveCount]

theorem saves_eq_false_of_saveCount {place : Nat} {id : PolicyId} {m n k : Nat}
    (h : program.saveCount place id m n = 0) (hmk : m ≤ k) (hkn : k < n) :
    program.saves place id k = false := by
  have := List.countP_eq_zero.1 h k (List.mem_range'_1.2 ⟨hmk, by omega⟩)
  simpa using this

theorem find?_later {place m n : Nat} (hmn : m ≤ n) {id : PolicyId} {r : Record}
    (h : (program.contents place m).find? id = some r) :
    ∃ later, (program.contents place n).find? id = some later ∧
      later.version = r.version + program.saveCount place id m n ∧
      (program.saveCount place id m n = 0 → later = r) := by
  -- over the moments that pass; each leaves the record alone or raises its version by one
  induction n, hmn using Nat.le_induction with
  | base =>
    have hzero : program.saveCount place id m m = 0 := by
      rw [saveCount, Nat.sub_self]
      rfl
    exact ⟨r, h, by rw [hzero]; rfl, fun _ => rfl⟩
  | succ n hmn ih =>
    obtain ⟨later, hlater, hversion, hsame⟩ := ih
    rw [saveCount_succ hmn]
    rcases find?_succ hlater with ⟨hsaves, hkept⟩ | ⟨hsaves, next, hnext, hraised⟩
    · rw [hsaves]
      exact ⟨later, hkept, hversion, hsame⟩
    · rw [hsaves]
      refine ⟨next, hnext, ?_, fun hzero => absurd hzero (Nat.succ_ne_zero _)⟩
      rw [hraised, hversion]
      rfl

theorem Loads.find?_eq {place n : Nat} {r : Record} (h : program.Loads place n r) :
    (program.contents place n).find? r.id = some r := by
  obtain ⟨hcall, hanswer⟩ := h
  rw [(answer_of_call hcall).1] at hanswer
  have hload : ((program.contents place n).load r.id).map Store.Answer.record = .ok (.record r) :=
    Option.some_inj.1 hanswer
  cases hfound : (program.contents place n).load r.id with
  | error fault =>
    rw [hfound] at hload
    exact absurd hload (by simp [Except.map])
  | ok loaded =>
    rw [hfound] at hload
    obtain rfl : loaded = r := by simpa [Except.map] using hload
    exact Store.load_eq_ok_iff.1 hfound

/-- A version of a policy stands for one record, whenever it is loaded. -/
theorem Loads.eq_of_le {place m n : Nat} (hmn : m ≤ n) {r r' : Record}
    (h : program.Loads place m r) (h' : program.Loads place n r') (hid : r.id = r'.id)
    (hversion : r.version = r'.version) : r = r' := by
  obtain ⟨later, hlater, hraised, hsame⟩ := find?_later hmn h.find?_eq
  rw [hid] at hlater hraised hsame
  obtain rfl := Option.some_inj.1 (h'.find?_eq.symm.trans hlater)
  exact (hsame (by omega)).symm

/-- How a store answers and changes in a program, whatever handles there are to it. -/
structure IsOptimistic (program : Sharing) (place : Nat) : Prop where
  /-- The store begins empty. -/
  begins : program.contents place 0 = .empty
  /-- The answer to a call depends on what the store holds, and not on the handle. -/
  shared : ∀ n handle call, program.uses n = .ask handle call →
    program.place? n handle = some place →
      program.answer? n = some (call.on (program.contents place n)).1 ∧
        program.contents place (n + 1) = (call.on (program.contents place n)).2
  /-- A clone refers to the same store from then on. -/
  cloned : ∀ m n handle, program.uses m = .clone handle → program.place? m handle = some place →
    m < n → program.place? n (program.memory m).handles.length = some place ∧
      program.place? n handle = some place
  /-- Nothing else changes the store. -/
  others : ∀ n, program.call? place n = none →
    program.contents place (n + 1) = program.contents place n
  /-- Nor does a call that fails. -/
  failed : ∀ n call fault, program.call? place n = some call →
    program.answer? n = some (.error fault) →
      program.contents place (n + 1) = program.contents place n
  /-- Reading changes nothing either. A load shows what is stored, a list shows every record
  once. -/
  loads : ∀ n id, program.call? place n = some (.load id) →
    program.contents place (n + 1) = program.contents place n ∧
      program.answer? n = some (match (program.contents place n).find? id with
        | some r => .ok (.record r)
        | none => .error (.missing id))
  lists : ∀ n, program.call? place n = some .list →
    program.contents place (n + 1) = program.contents place n ∧
      ∃ rs, program.answer? n = some (.ok (.records rs)) ∧ rs.Nodup ∧
        ∀ r, r ∈ rs ↔ (program.contents place n).find? r.id = some r
  /-- A record is inserted exactly when its policy has none; no other record changes. -/
  inserts_iff : ∀ n r, program.call? place n = some (.insert r) →
    ((∃ answer, program.answer? n = some (.ok answer)) ↔
      (program.contents place n).find? r.id = none)
  inserted : ∀ n r answer, program.call? place n = some (.insert r) →
    program.answer? n = some (.ok answer) → answer = .record r ∧
      ∀ id, (program.contents place (n + 1)).find? id =
        if id = r.id then some r else (program.contents place n).find? id
  /-- A record is saved exactly when its policy has one of just that version; it takes its place
  under the next version, and no other record changes. -/
  saves_iff : ∀ n r, program.call? place n = some (.save r) →
    ((∃ answer, program.answer? n = some (.ok answer)) ↔
      ∃ stored, (program.contents place n).find? r.id = some stored ∧
        stored.version = r.version)
  saved : ∀ n r answer, program.call? place n = some (.save r) →
    program.answer? n = some (.ok answer) →
      answer = .record { r with version := r.version + 1 } ∧
        ∀ id, (program.contents place (n + 1)).find? id =
          if id = r.id then some { r with version := r.version + 1 }
          else (program.contents place n).find? id
  /-- Records are never lost, and their versions count the saves. -/
  kept : ∀ m n id r, m ≤ n → (program.contents place m).find? id = some r →
    ∃ later, (program.contents place n).find? id = some later ∧
      later.version = r.version + program.saveCount place id m n
  /-- Two loads of one policy that show one version show one record. -/
  unique : ∀ m n r r', program.Loads place m r → program.Loads place n r' → r.id = r'.id →
    r.version = r'.version → r = r'
  /-- A save that goes back to a load, by its policy and its version, goes through only if the
  loaded record is still there and nothing was saved for the policy since. -/
  current : ∀ m n loaded r answer, m < n → program.Loads place m loaded →
    program.call? place n = some (.save r) → r.id = loaded.id → r.version = loaded.version →
      program.answer? n = some (.ok answer) →
        (program.contents place n).find? loaded.id = some loaded ∧
          ∀ k, m ≤ k → k < n → program.saves place loaded.id k = false

theorem place?_of_le {m n handle place : Nat} (hmn : m ≤ n)
    (h : program.place? m handle = some place) : program.place? n handle = some place := by
  induction n, hmn using Nat.le_induction with
  | base => exact h
  | succ n _ ih => exact place?_succ ih

theorem call?_of_ask {n handle place : Nat} {call : Store.Call}
    (huse : program.uses n = .ask handle call) (h : program.place? n handle = some place) :
    program.call? place n = some call := by
  exact Use.call?_eq_some_iff.2 ⟨handle, huse, h⟩

/-- Whatever a program does with stores and handles, every store in it saves optimistically. -/
theorem isOptimistic (program : Sharing) (place : Nat) : program.IsOptimistic place := by
  constructor
  case begins => rfl
  case shared =>
    intro n handle call huse hplace
    exact answer_of_call (call?_of_ask huse hplace)
  case cloned =>
    intro m n handle huse hplace hmn
    exact ⟨place?_of_le hmn (place?_clone huse hplace), place?_of_le (Nat.le_of_lt hmn) hplace⟩
  case others => exact fun n h => contents_succ_of_none h
  case failed =>
    intro n call fault hcall hanswer
    obtain ⟨hgiven, hnext⟩ := answer_of_call hcall
    rw [hnext]
    exact Store.Call.on_of_error (Option.some_inj.1 (hgiven.symm.trans hanswer))
  case loads =>
    intro n id hcall
    obtain ⟨hgiven, hnext⟩ := answer_of_call hcall
    refine ⟨hnext, hgiven.trans ?_⟩
    simp only [Store.Call.on, Store.load]
    cases (program.contents place n).find? id <;> rfl
  case lists =>
    intro n hcall
    obtain ⟨hgiven, hnext⟩ := answer_of_call hcall
    exact ⟨hnext, _, hgiven, Store.nodup_list _, fun r => Store.mem_list_iff⟩
  case inserts_iff =>
    intro n r hcall
    rw [(answer_of_call hcall).1]
    rcases Store.Call.on_insert (program.contents place n) r with
      ⟨habsent, hok, -⟩ | ⟨hfound, hfails⟩
    · exact ⟨fun _ => habsent, fun _ => ⟨_, congrArg some hok⟩⟩
    · simp [hfound, hfails]
  case inserted =>
    intro n r answer hcall hanswer
    obtain ⟨hgiven, hnext⟩ := answer_of_call hcall
    have hgave := Option.some_inj.1 (hgiven.symm.trans hanswer)
    rcases Store.Call.on_insert (program.contents place n) r with ⟨-, hok, hfind⟩ | ⟨-, hfails⟩
    · rw [hnext]
      exact ⟨Except.ok.inj (hgave.symm.trans hok), hfind⟩
    · rw [hfails] at hgave
      exact absurd hgave (by simp)
  case saves_iff =>
    intro n r hcall
    rw [(answer_of_call hcall).1]
    rcases Store.Call.on_save (program.contents place n) r with
      ⟨hstored, hok, -⟩ | ⟨hnone, fault, hfails⟩
    · exact ⟨fun _ => hstored, fun _ => ⟨_, congrArg some hok⟩⟩
    · simp [hnone, hfails]
  case saved =>
    intro n r answer hcall hanswer
    obtain ⟨hgiven, hnext⟩ := answer_of_call hcall
    have hgave := Option.some_inj.1 (hgiven.symm.trans hanswer)
    rcases Store.Call.on_save (program.contents place n) r with
      ⟨-, hok, hfind⟩ | ⟨-, fault, hfails⟩
    · rw [hnext]
      exact ⟨Except.ok.inj (hgave.symm.trans hok), hfind⟩
    · rw [hfails] at hgave
      exact absurd hgave (by simp)
  case kept =>
    intro m n id r hmn hr
    obtain ⟨later, hlater, hversion, -⟩ := find?_later hmn hr
    exact ⟨later, hlater, hversion⟩
  case unique =>
    intro m n r r' hr hr' hid hversion
    rcases Nat.le_total m n with hmn | hnm
    · exact hr.eq_of_le hmn hr' hid hversion
    · exact (hr'.eq_of_le hnm hr hid.symm hversion.symm).symm
  case current =>
    intro m n loaded r answer hmn hloaded hcall hid hversion hanswer
    obtain ⟨later, hlater, hraised, hsame⟩ := find?_later (Nat.le_of_lt hmn) hloaded.find?_eq
    have hgave := Option.some_inj.1 ((answer_of_call hcall).1.symm.trans hanswer)
    rcases Store.Call.on_save (program.contents place n) r with
      ⟨⟨stored, hfound, hstored⟩, -⟩ | ⟨-, fault, hfails⟩
    · rw [hid] at hfound
      obtain rfl := Option.some_inj.1 (hfound.symm.trans hlater)
      -- the version that was loaded is still the stored one
      have hzero : program.saveCount place loaded.id m n = 0 := by omega
      rw [← hsame hzero]
      rw [← hsame hzero] at hlater hzero
      exact ⟨hlater, fun k hmk hkn => saves_eq_false_of_saveCount hzero hmk hkn⟩
    · rw [hfails] at hgave
      exact absurd hgave (by simp)

/-- Two handles to one store: of two saves that present the same draft the second is refused. -/
example (now : Instant) :
    let draft : Record := .draft ⟨⟨.replicate 32 0⟩⟩ ⟨"h"⟩ 100 now
    let program : Sharing :=
      ⟨fun
        | 0 => .create
        | 1 => .clone 0
        | 2 => .ask 0 (.insert draft)
        | 3 => .ask 0 (.save draft)
        | _ => .ask 1 (.save draft)⟩
    program.answer? 4 = some (.error (.outdated draft.id 0 1)) := by
  rfl

end Sharing

end PolicyBook.Policy
