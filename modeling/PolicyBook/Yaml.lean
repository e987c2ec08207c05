import PolicyBook.Text.Numeral
/-!
YAML documents.

A document is a tree of nodes. A scalar is kept as it is written, with the way in which it is
written; what it stands for depends on what is asked of it, so `404` is a text where a text is
expected and a number where a number is. An alias stands for the node that is anchored under its
number, and every view of a node sees through aliases:

* `Document.text?` and `Document.word?` read scalars,
* `Document.items?` and `Document.closedFields?` read lists and tables; a node that is left out
  counts as an empty one.
-/
namespace PolicyBook.Yaml

inductive Style where
  | bare
  | quoted
  /-- On lines of its own, which are kept. -/
  | literal
  /-- On lines of its own, which are folded. -/
  | folded
  deriving DecidableEq, Repr

inductive Node where
  /-- The node that is anchored under a number. -/
  | alias (number : Nat)
  | scalar (tag : Option (List Char)) (style : Style) (text : List Char)
  | list (items : List Node)
  /-- Nodes under keys, in the order in which they were written. -/
  | table (entries : List (Node × Node))

/-- The node that is left out. -/
def Node.absent : Node := .scalar none .bare []

structure Document where
  root : Node
  /-- The nodes that are anchored, with their numbers; of two with one number the first counts. -/
  anchored : List (Nat × Node)

def nullTag : List Char := "tag:yaml.org,2002:null".toList

def integerTag : List Char := "tag:yaml.org,2002:int".toList

def isNull (cs : List Char) : Bool :=
  ["~", "null", "Null", "NULL"].contains (String.ofList cs)

def unsigned (cs : List Char) : List Char :=
  if cs.head? = some '+' then cs.tail else cs

/-- Whether a text consists of digits of which the first is a zero too many. -/
def hasIdleZero (cs : List Char) : Bool :=
  let digits := if cs.head? = some '+' ∨ cs.head? = some '-' then cs.tail else cs
  digits.head? = some '0' && 1 < digits.length && digits.all Char.isDigit

def inBase? (base : Nat) (cs : List Char) : Option Nat := do
  guard (!cs.isEmpty)
  let ds ← cs.mapM Text.hexDigit?
  guard (ds.all (·.val < base))
  return ds.foldl (fun n d => base * n + d.val) 0

/-- Read a number with a mark of its base in front. -/
def marked? : List Char → Option Nat
  | '0' :: 'x' :: cs => inBase? 16 cs
  | '0' :: 'o' :: cs => inBase? 8 cs
  | '0' :: 'b' :: cs => inBase? 2 cs
  | _ => none

def natural? (cs : List Char) : Option Nat :=
  (marked? (unsigned cs)).or (if hasIdleZero cs then none else Text.natural? (unsigned cs))

namespace Node

mutual

/-- How many parts a node has: a scalar and an alias are one, a list and a table have a beginning
and an end. -/
def parts : Node → Nat
  | .alias _ => 1
  | .scalar .. => 1
  | .list items => partsOfItems items + 2
  | .table entries => partsOfEntries entries + 2

def partsOfItems : List Node → Nat
  | [] => 0
  | node :: rest => node.parts + partsOfItems rest

def partsOfEntries : List (Node × Node) → Nat
  | [] => 0
  | (key, value) :: rest => key.parts + value.parts + partsOfEntries rest

end

end Node

namespace Document

/-- The node for which a node stands. -/
def resolve (doc : Document) : Node → Node
  | .alias number => (doc.anchored.lookup number).getD .absent
  | node => node

def text? (doc : Document) (node : Node) : Option String :=
  match doc.resolve node with
  | .scalar _ _ cs => some (String.ofList cs)
  | _ => none

/-- The natural number of at most sixty-four bits that a scalar is, if it is one. A scalar on lines
of its own is a number only if it is tagged so. -/
def word? (doc : Document) (node : Node) : Option Nat :=
  match doc.resolve node with
  | .scalar tag style cs =>
    if style = .bare ∨ (style = .literal ∧ tag = some integerTag) then
      (natural? cs).filter (· ≤ Text.maxWord)
    else none
  | _ => none

def items? (doc : Document) (node : Node) : Option (List Node) :=
  match doc.resolve node with
  | .list items => some items
  | .scalar _ .bare [] => some []
  | _ => none

/-- The fields of a record that admits no others and repeats none. -/
def closedFields? (doc : Document) (names : List String) (node : Node) :
    Option (List (Option Node)) :=
  match doc.resolve node with
  | .table entries => do
    let members ← entries.mapM fun entry => (doc.text? entry.1).map (·, entry.2)
    guard (members.all fun m => names.contains m.1)
    guard (decide (members.map Prod.fst).Nodup)
    return names.map fun name => members.lookup name
  | .scalar _ .bare [] => some (names.map fun _ => none)
  | _ => none

/-- Whether a node stands for something. A bare scalar without a tag stands for nothing if it is
empty or a word for nothing; one that is tagged as nothing must be such a word. -/
def isPresent? (doc : Document) (node : Node) : Option Bool :=
  match doc.resolve node with
  | .scalar none .bare cs => some (!cs.isEmpty && !isNull cs)
  | .scalar (some tag) .bare cs =>
    if tag ≠ nullTag then some true else if isNull cs then some false else none
  | _ => some true

def optional? {α : Type} (doc : Document) (read? : Node → Option α) :
    Option Node → Option (Option α)
  | none => some none
  | some node => do if ← doc.isPresent? node then some <$> read? node else some none

/-- How many aliases are met in a node, those inside of what they stand for counted again each time.
The first argument bounds how deep is looked. -/
def references (doc : Document) : Nat → Node → Nat
  | 0, _ => 0
  | depth + 1, .alias number =>
    1 + ((doc.anchored.lookup number).map (doc.references depth)).getD 0
  | _ + 1, .scalar .. => 0
  | depth + 1, .list items => (items.map (doc.references depth)).sum
  | depth + 1, .table entries =>
    (entries.map fun entry =>
      doc.references depth entry.1 + doc.references depth entry.2).sum

/-- How many references a document may have for each of its parts. -/
def maxReferences : Nat := 100

/-- Whether a document keeps within `maxReferences`, looked at so many levels deep. -/
def isModest (doc : Document) (depth : Nat) : Bool :=
  doc.references depth doc.root ≤ maxReferences * doc.root.parts

end Document

end PolicyBook.Yaml
