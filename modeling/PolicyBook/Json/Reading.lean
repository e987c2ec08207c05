import PolicyBook.Json.Numeral
import PolicyBook.Json.Quoted
import PolicyBook.Json.Raw
/-!
Reading JSON texts.

The grammar is the standard one and nothing more: no comments, no commas before a closing bracket,
no control characters inside quotation marks. What keeps to it is a raw value (`Raw.ofText?`); a
number that is too large, half a character alone and what is nested deeper than `maxNesting` levels
are parts of it that have no value. `Json.ofText?` reads a whole text as a value.
-/
namespace PolicyBook.Json

/-- How deep lists and objects may nest. -/
def maxNesting : Nat := 127

def isSpace (c : Char) : Bool :=
  c == ' ' || c == '\n' || c == '\t' || c == '\r'

def unspaced (cs : List Char) : List Char :=
  cs.dropWhile isSpace

/-- Take what stands between quotation marks off, with the marks. -/
def pieces? : List Char → Option (List Piece × List Char)
  | '"' :: rest => unquoted? rest.length rest
  | _ => none

def word? (word : List Char) (cs : List Char) : Option (List Char) :=
  if word.isPrefixOf cs then some (cs.drop word.length) else none

def Raw.ofOption (v : Option Json) : Raw :=
  v.elim .unreadable .value

def scalar? (cs : List Char) : Option (Raw × List Char) := do
  match cs with
  | '"' :: _ =>
    let (pieces, rest) ← pieces? cs
    return (.ofOption ((Piece.text? pieces).map fun cs => .str (String.ofList cs)), rest)
  | 'n' :: _ => let rest ← word? "null".toList cs; return (.value .null, rest)
  | 't' :: _ => let rest ← word? "true".toList cs; return (.value (.bool true), rest)
  | 'f' :: _ => let rest ← word? "false".toList cs; return (.value (.bool false), rest)
  | _ =>
    let (numeral, rest) ← numeral? cs
    return (.ofOption numeral.value?, rest)

/-- Members under names; a name with half a character alone is the name of nothing. -/
def Raw.ofMembers (members : List (List Piece × Raw)) : Raw :=
  let named := members.mapM fun m => (Piece.text? m.1).map fun name => (String.ofList name, m.2)
  named.elim .unreadable .object

mutual

/-- Take a part off, with the space before it. The first argument bounds the number of steps, the
second is the number of levels that may still have a value. -/
def takeRaw? : Nat → Nat → List Char → Option (Raw × List Char)
  | 0, _, _ => none
  | steps + 1, levels, cs =>
    match unspaced cs with
    | '[' :: rest => do
      let (items, rest) ←
        match unspaced rest with
        | ']' :: rest => some ([], rest)
        | rest => takeItems? steps (levels - 1) rest
      return (if levels = 0 then .unreadable else .list items, rest)
    | '\x7b' :: rest => do
      let (members, rest) ←
        match unspaced rest with
        | '\x7d' :: rest => some ([], rest)
        | rest => takeMembers? steps (levels - 1) rest
      return (if levels = 0 then .unreadable else .ofMembers members, rest)
    | cs => scalar? cs

def takeItems? : Nat → Nat → List Char → Option (List Raw × List Char)
  | 0, _, _ => none
  | steps + 1, levels, cs => do
    let (r, rest) ← takeRaw? steps levels cs
    match unspaced rest with
    | ',' :: rest => do
      let (rs, rest) ← takeItems? steps levels rest
      return (r :: rs, rest)
    | ']' :: rest => return ([r], rest)
    | _ => none

def takeMembers? : Nat → Nat → List Char → Option (List (List Piece × Raw) × List Char)
  | 0, _, _ => none
  | steps + 1, levels, cs => do
    let (name, rest) ← pieces? (unspaced cs)
    match unspaced rest with
    | ':' :: rest => do
      let (r, rest) ← takeRaw? steps levels rest
      match unspaced rest with
      | ',' :: rest => do
        let (ms, rest) ← takeMembers? steps levels rest
        return ((name, r) :: ms, rest)
      | '\x7d' :: rest => return ([(name, r)], rest)
      | _ => none
    | _ => none

end

def Raw.ofChars? (cs : List Char) : Option Raw := do
  let (r, rest) ← takeRaw? (2 * cs.length + 1) maxNesting cs
  guard (unspaced rest).isEmpty
  return r

def Raw.ofText? (s : String) : Option Raw := ofChars? s.toList

def ofChars? (cs : List Char) : Option Json :=
  (Raw.ofChars? cs).bind Raw.value?

def ofText? (s : String) : Option Json := ofChars? s.toList

end PolicyBook.Json
