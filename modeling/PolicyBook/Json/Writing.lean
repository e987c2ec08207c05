import PolicyBook.Double.Shortest
import PolicyBook.Json
import PolicyBook.Json.Quoted
/-!
Writing JSON texts.

`Json.compact` writes on one line without space; `Json.pretty` puts every item and member on a line
of its own. Both keep the members in the order in which they stand.
-/
namespace PolicyBook.Json

def integer : Int → List Char
  | .ofNat n => Text.decimal n
  | .negSucc n => '-' :: Text.decimal (n + 1)

/-- A floating-point number; it keeps a point, so that it reads back as one. -/
def floating (x : Double) : List Char :=
  let cs := x.text.toList
  if cs.contains '.' then cs else cs ++ ['.', '0']

def joined (separator : List Char) : List (List Char) → List Char
  | [] => []
  | [cs] => cs
  | cs :: rest => cs ++ separator ++ joined separator rest

mutual

def compact : Json → List Char
  | .null => "null".toList
  | .bool true => "true".toList
  | .bool false => "false".toList
  | .int n => integer n
  | .float x => floating x
  | .str s => quote s
  | .arr items => '[' :: joined [','] (compactItems items) ++ [']']
  | .obj members => '\x7b' :: joined [','] (compactMembers members) ++ ['\x7d']

def compactItems : List Json → List (List Char)
  | [] => []
  | v :: vs => v.compact :: compactItems vs

def compactMembers : List (String × Json) → List (List Char)
  | [] => []
  | (name, v) :: rest => (quote name ++ ':' :: v.compact) :: compactMembers rest

end

/-- A line break, followed by two spaces for every level. -/
def newLine (level : Nat) : List Char :=
  '\n' :: List.replicate (2 * level) ' '

/-- Pieces between brackets, each on a line of its own; without pieces the brackets touch. -/
def bracketed (level : Nat) (opening closing : Char) (pieces : List (List Char)) : List Char :=
  if pieces.isEmpty then [opening, closing]
  else
    opening :: newLine (level + 1) ++ joined (',' :: newLine (level + 1)) pieces ++
      newLine level ++ [closing]

mutual

/-- A value over several lines, the brackets of the value standing at a level. -/
def prettyAt (level : Nat) : Json → List Char
  | .arr items => bracketed level '[' ']' (prettyItems (level + 1) items)
  | .obj members => bracketed level '\x7b' '\x7d' (prettyMembers (level + 1) members)
  | .null => compact .null
  | .bool b => compact (.bool b)
  | .int n => compact (.int n)
  | .float x => compact (.float x)
  | .str s => compact (.str s)

def prettyItems (level : Nat) : List Json → List (List Char)
  | [] => []
  | v :: vs => prettyAt level v :: prettyItems level vs

def prettyMembers (level : Nat) : List (String × Json) → List (List Char)
  | [] => []
  | (name, v) :: rest =>
    (quote name ++ ':' :: ' ' :: prettyAt level v) :: prettyMembers level rest

end

def pretty (v : Json) : String := String.ofList (prettyAt 0 v)

def line (v : Json) : String := String.ofList v.compact

end PolicyBook.Json
