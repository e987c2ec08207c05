import PolicyBook.Policy.Store
/-!
What can be asked of a store.

Records are added, saved, loaded and listed. A call that goes through is answered with records; one
that does not leaves the store as it is.
-/
namespace PolicyBook.Policy

namespace Store

inductive Call where
  | insert (r : Record)
  /-- Save a record that was loaded at its version. -/
  | save (r : Record)
  | load (id : PolicyId)
  | list
  deriving DecidableEq

inductive Answer where
  /-- A record: the one that was loaded, or the one that is kept. -/
  | record (r : Record)
  | records (rs : List Record)
  deriving DecidableEq

def Call.on : Call → Store → Except StoreFault Answer × Store
  | insert r, store =>
    match store.insert r with
    | .ok store => (.ok (.record r), store)
    | .error fault => (.error fault, store)
  | save r, store =>
    match store.save r with
    | .ok (kept, store) => (.ok (.record kept), store)
    | .error fault => (.error fault, store)
  | load id, store => ((store.load id).map .record, store)
  | list, store => (.ok (.records store.list), store)

end Store

end PolicyBook.Policy
