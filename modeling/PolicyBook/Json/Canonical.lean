import PolicyBook.Digest.Sha256
import PolicyBook.Json.Writing
import PolicyBook.Ordered
/-!
Canonical texts: one text for every meaning, fit to be hashed.

The canonical text of a value is the compact text of its normal form with the members of every
object in the order of their written names, quotation marks included. That is not quite the order of
the names themselves: of two names one of which begins the other the longer may come first, because
its next character is compared with a closing quotation mark.

Floating-point numbers have no canonical text. `Json.canonical` refuses a value that holds one and
names the first.
-/
namespace PolicyBook.Json

/-- Whether the written name of the first member does not come after that of the second. -/
def writtenLe (a b : String × Json) : Bool := !decide (quote b.1 < quote a.1)

mutual

/-- The same value with the members of every object in the order of their written names. -/
def inWrittenOrder : Json → Json
  | .arr items => .arr (itemsInWrittenOrder items)
  | .obj members => .obj (ordered writtenLe (membersInWrittenOrder members))
  | .null => .null
  | .bool b => .bool b
  | .int n => .int n
  | .float x => .float x
  | .str s => .str s

def itemsInWrittenOrder : List Json → List Json
  | [] => []
  | v :: vs => v.inWrittenOrder :: itemsInWrittenOrder vs

def membersInWrittenOrder : List (String × Json) → List (String × Json)
  | [] => []
  | (name, v) :: rest => (name, v.inWrittenOrder) :: membersInWrittenOrder rest

end

/-- The canonical text of a value, whether it holds floating-point numbers or not. -/
def canonicalText (v : Json) : List Char :=
  v.normal.inWrittenOrder.compact

/-- The canonical text of a value, or the first floating-point number in it. -/
def canonical (v : Json) : Except Double (List Char) :=
  match v.normal.firstFloat? with
  | some x => .error x
  | none => .ok v.canonicalText

def floatMessage (x : Double) : String :=
  "float values are not permitted in canonical representations; use integer minor units: " ++ x.text

/-- The digest of a text, taken over its UTF-8 bytes. -/
def digestOf (cs : List Char) : Digest :=
  sha256 (String.ofList cs).toUTF8.toList

end PolicyBook.Json
