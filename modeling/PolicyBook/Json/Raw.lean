import PolicyBook.Json
/-!
What a JSON text holds, before anybody asks for its value.

The grammar of JSON admits more than has a value: numbers beyond every range, half a character
between quotation marks, brackets within brackets without end. Such a part does no harm as long as
nobody looks at it. A `Json.Raw` keeps it as `unreadable`; `Raw.value?` asks for the value of the
whole, and `Raw.fields?` picks the fields of a record out and passes over everything else.

Every value is a raw value too, and looks the same: `items?` and `members?` see through
`Raw.value`.
-/
namespace PolicyBook.Json

/-- A JSON text taken apart. -/
inductive Raw where
  | value (v : Json)
  /-- A part that keeps to the grammar and has no value. -/
  | unreadable
  | list (items : List Raw)
  | object (members : List (String × Raw))

namespace Raw

mutual

/-- The value of the whole, if every part of it has one. -/
def value? : Raw → Option Json
  | .value v => some v
  | .unreadable => none
  | .list items => (itemValues? items).map Json.arr
  | .object members => (memberValues? members).map Json.obj

def itemValues? : List Raw → Option (List Json)
  | [] => some []
  | r :: rest => do
    let v ← r.value?
    let vs ← itemValues? rest
    return v :: vs

def memberValues? : List (String × Raw) → Option (List (String × Json))
  | [] => some []
  | (name, r) :: rest => do
    let v ← r.value?
    let vs ← memberValues? rest
    return (name, v) :: vs

end

def items? : Raw → Option (List Raw)
  | .value (.arr items) => some (items.map value)
  | .list items => some items
  | _ => none

def members? : Raw → Option (List (String × Raw))
  | .value (.obj members) => some (members.map fun m => (m.1, value m.2))
  | .object members => some members
  | _ => none

def str? : Raw → Option String
  | .value (.str s) => some s
  | _ => none

def bool? : Raw → Option Bool
  | .value (.bool b) => some b
  | _ => none

def int? : Raw → Option Int
  | .value (.int n) => some n
  | _ => none

def isNull : Raw → Bool
  | .value .null => true
  | _ => false

/-- The fields with the given names out of members; an absent field is nothing. A field that is
given twice is refused, and all other members are passed over. -/
def fieldsOf? (names : List String) (members : List (String × Raw)) : Option (List (Option Raw)) :=
  if names.all fun name => (members.filter fun m => m.1 == name).length ≤ 1 then
    some (names.map fun name => (members.find? fun m => m.1 == name).map Prod.snd)
  else none

/-- The fields of a record in their order, whether it is an object or the list of its fields. A list
of another length is refused. -/
def fields? (names : List String) (r : Raw) : Option (List (Option Raw)) :=
  match r.items?, r.members? with
  | some items, _ => if items.length = names.length then some (items.map some) else none
  | none, some members => fieldsOf? names members
  | none, none => none

end Raw

end PolicyBook.Json
