import PolicyBook.Double
/-!
JSON values.

A number is an integer or a floating-point number; the two never stand for each other. An object
keeps its members in order and may repeat a name.

Two objects mean the same when they have the same members under the same names, of a repeated name
the last one. `Json.normal` picks one value of each meaning: names increase and do not repeat.
-/
namespace PolicyBook

inductive Json where
  | null
  | bool (b : Bool)
  | int (n : Int)
  /-- A number with a point or an exponent, or an integer that is too large for `int`. -/
  | float (x : Double)
  | str (s : String)
  | arr (items : List Json)
  /-- Named values, in the order in which they were written. -/
  | obj (members : List (String × Json))
  deriving Repr

namespace Json

def nat (n : Nat) : Json := .int n

/-- Give a name its value in a list with increasing names. -/
def insertMember {α : Type} (name : String) (x : α) : List (String × α) → List (String × α)
  | [] => [(name, x)]
  | (other, y) :: rest =>
    if name = other then (name, x) :: rest
    else if name.toList < other.toList then (name, x) :: (other, y) :: rest
    else (other, y) :: insertMember name x rest

mutual

/-- The same meaning with members in increasing order of names and no name repeated. -/
def normal : Json → Json
  | .arr items => .arr (normalItems items)
  | .obj members => .obj (normalMembers [] members)
  | .null => .null
  | .bool b => .bool b
  | .int n => .int n
  | .float x => .float x
  | .str s => .str s

def normalItems : List Json → List Json
  | [] => []
  | v :: vs => v.normal :: normalItems vs

/-- Enter members one by one among those entered before; a later value replaces an earlier one. -/
def normalMembers (entered : List (String × Json)) : List (String × Json) → List (String × Json)
  | [] => entered
  | (name, v) :: rest => normalMembers (insertMember name v.normal entered) rest

end

mutual

/-- The first floating-point number in a value, members taken in the order in which they stand. -/
def firstFloat? : Json → Option Double
  | .float x => some x
  | .arr items => firstFloatOfItems? items
  | .obj members => firstFloatOfMembers? members
  | .null | .bool _ | .int _ | .str _ => none

def firstFloatOfItems? : List Json → Option Double
  | [] => none
  | v :: vs => v.firstFloat?.or (firstFloatOfItems? vs)

def firstFloatOfMembers? : List (String × Json) → Option Double
  | [] => none
  | (_, v) :: rest => v.firstFloat?.or (firstFloatOfMembers? rest)

end

/-- The value of a member, the last one of that name. -/
def member? (name : String) : Json → Option Json
  | .obj members => (members.reverse.find? fun m => m.1 == name).map Prod.snd
  | _ => none

def str? : Json → Option String
  | .str s => some s
  | _ => none

def bool? : Json → Option Bool
  | .bool b => some b
  | _ => none

def int? : Json → Option Int
  | .int n => some n
  | _ => none

def items? : Json → Option (List Json)
  | .arr items => some items
  | _ => none

def ofOption : Option Json → Json
  | some v => v
  | none => .null

end Json

end PolicyBook
