import PolicyBook.Ordered
import PolicyBook.Policy.Record
/-!
Stores of policy records, with optimistic saving.

A record is saved by presenting the version at which it was loaded; the store keeps it under the
next version, or refuses when another record was saved in between. A store has at most one record
for a policy, and its view is `find?`:

* `find?_insert` and `find?_save` say what the store holds after a record was accepted,
* `list` shows every record once, oldest first.
-/
namespace PolicyBook.Policy

inductive StoreFault where
  | missing (id : PolicyId)
  /-- The record was saved since it was loaded. -/
  | outdated (id : PolicyId) (expected found : Nat)
  | taken (id : PolicyId)
  deriving DecidableEq

def StoreFault.message : StoreFault → String
  | missing id => s!"policy {id.text} not found"
  | outdated id expected found =>
    s!"policy {id.text} was modified concurrently (expected version {expected}, found {found})"
  | taken id => s!"policy {id.text} already exists"

/-- Records of policies, at most one for each. -/
structure Store where
  /-- The records in the order in which they were inserted. -/
  records : List Record
  distinct : (records.map Record.id).Nodup
  deriving DecidableEq

namespace Store

def empty : Store := ⟨[], List.nodup_nil⟩

def find? (store : Store) (id : PolicyId) : Option Record :=
  store.records.find? fun r => r.id = id

def size (store : Store) : Nat := store.records.length

def load (store : Store) (id : PolicyId) : Except StoreFault Record :=
  match store.find? id with
  | some r => .ok r
  | none => .error (.missing id)

theorem find?_eq_none_iff {store : Store} {id : PolicyId} :
    store.find? id = none ↔ id ∉ store.records.map Record.id := by
  simp [find?]

def insert (store : Store) (r : Record) : Except StoreFault Store :=
  if h : store.find? r.id = none then
    .ok {
      records := store.records ++ [r]
      distinct := by
        rw [List.map_append, List.map_singleton]
        refine List.nodup_append.2 ⟨store.distinct, by simp, ?_⟩
        rintro id hid _ hr rfl
        exact find?_eq_none_iff.1 h (List.mem_singleton.1 hr ▸ hid) }
  else .error (.taken r.id)

/-- The records with that of one policy exchanged. -/
def exchange (r : Record) (records : List Record) : List Record :=
  records.map fun other => if other.id = r.id then r else other

theorem map_id_exchange (r : Record) (records : List Record) :
    (exchange r records).map Record.id = records.map Record.id := by
  rw [exchange, List.map_map]
  refine List.map_congr_left fun other _ => ?_
  by_cases h : other.id = r.id <;> simp [h]

/-- Save a record that was loaded at its version. The answer is the record as it is kept, under the
next version. -/
def save (store : Store) (r : Record) : Except StoreFault (Record × Store) :=
  match store.find? r.id with
  | none => .error (.missing r.id)
  | some stored =>
    if stored.version = r.version then
      let kept := { r with version := r.version + 1 }
      .ok (kept, {
        records := exchange kept store.records
        distinct := by rw [map_id_exchange]; exact store.distinct })
    else .error (.outdated r.id r.version stored.version)

/-- Whether the first record is not listed after the second: it is older, or as old with a smaller
identifier, or the same. -/
def listedLe (a b : Record) : Bool :=
  a.createdAt < b.createdAt || (a.createdAt = b.createdAt && !decide (b.id < a.id))

/-- Every record, oldest first, records of one age by identifier. -/
def list (store : Store) : List Record := ordered listedLe store.records

@[simp]
theorem find?_empty (id : PolicyId) : empty.find? id = none := rfl

theorem find?_insert {store store' : Store} {r : Record} (h : store.insert r = .ok store')
    (id : PolicyId) : store'.find? id = if id = r.id then some r else store.find? id := by
  unfold insert at h
  split at h
  · next hnone =>
    injection h with h
    subst h
    by_cases hid : id = r.id
    · subst hid
      simp only [find?] at hnone ⊢
      simp [List.find?_append, hnone]
    · simp [find?, List.find?_append, hid, Ne.symm hid]
  · exact absurd h (by simp)

theorem find?_exchange (kept : Record) (records : List Record) (id : PolicyId) :
    (exchange kept records).find? (fun r => r.id = id) =
      if id = kept.id then (records.find? fun r => r.id = id).map fun _ => kept
      else records.find? fun r => r.id = id := by
  induction records with
  | nil => simp [exchange]
  | cons r rs ih =>
    simp only [exchange, List.map_cons] at ih ⊢
    by_cases hr : r.id = kept.id
    · by_cases hid : id = kept.id
      · simp [hr, hid]
      · simp only [if_pos hr]
        rw [List.find?_cons_of_neg (by simpa using Ne.symm hid), ih, if_neg hid,
          List.find?_cons_of_neg (by simpa [hr] using Ne.symm hid)]
        simp [hid]
    · by_cases hid : r.id = id
      · have hne : id ≠ kept.id := fun h => hr (hid.trans h)
        simp [hid, hne]
      · rw [if_neg hr, List.find?_cons_of_neg (by simpa using hid), ih,
          List.find?_cons_of_neg (by simpa using hid)]

theorem find?_save {store store' : Store} {r kept : Record} (h : store.save r = .ok (kept, store'))
    (id : PolicyId) : store'.find? id = if id = r.id then some kept else store.find? id := by
  unfold save at h
  split at h
  · exact absurd h (by simp)
  · next stored hfound =>
    split at h
    · injection h with h
      injection h with hkept hstore
      subst hkept hstore
      have := find?_exchange { r with version := r.version + 1 } store.records id
      simp only [find?] at hfound ⊢
      rw [this]
      by_cases hid : id = r.id
      · subst hid
        simp [hfound]
      · simp [hid]
    · exact absurd h (by simp)

end Store

end PolicyBook.Policy
