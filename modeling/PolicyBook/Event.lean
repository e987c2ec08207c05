import PolicyBook.Event.Payload
/-!
Events: a payload under a name.

`Event.of` takes the name from the payload. An event that comes from outside states its name itself,
and nothing compares the two.
-/
namespace PolicyBook

structure Event where
  /-- The name that decides who hears of it. -/
  name : Event.Name
  payload : Event.Payload
  deriving DecidableEq

namespace Event

/-- The event of a payload, under the name of the payload. -/
def of (payload : Payload) : Event := ⟨payload.name, payload⟩

end Event

instance : JsonForm Event where
  encode e := .obj [("name", encode e.name), ("payload", encode e.payload)]
  read? r := do
    let [name, payload] ← r.fields? ["name", "payload"] | none
    return ⟨← Json.required? name, ← Json.required? payload⟩

end PolicyBook
