import PolicyBook.Assoc
import PolicyBook.Yaml.Token.Lexer
/-!
Reading YAML texts.

`Document.ofText?` reads a text that holds one document; a text without any holds the node that is
left out. Anchors are numbered as they come, and an alias refers to the number that its name has at
that place: a name that is given again gets another number.

The functions below take nodes off the front of a list of tokens. They call each other and are
bounded by their first argument; every call takes at least one token off or is followed by one that
does, so a bound of four calls for each token is never reached.
-/
namespace PolicyBook.Yaml

/-- What is left of a text, and what is known of it. -/
structure Feed where
  tokens : List Token
  /-- The stems of the handles. -/
  handles : Assoc (List Char) (List Char)
  /-- The numbers of the names that are given to nodes. -/
  names : Assoc (List Char) Nat
  anchored : List (Nat × Node)

/-- What is known of the next node before it is read. -/
structure Properties where
  /-- The number under which it is anchored. -/
  number : Option Nat
  tag : Option (List Char)

namespace Feed

def nextIs (feed : Feed) (tokens : List Token) : Bool :=
  feed.tokens.head?.any tokens.contains

def advance (feed : Feed) : Feed := { feed with tokens := feed.tokens.drop 1 }

/-- Give a name to the node that follows. Its number is that of the names known so far. -/
def anchor (name : List Char) (feed : Feed) : Nat × Feed :=
  let number := feed.names.entries.length
  (number, { feed with names := feed.names.set name number })

/-- Keep a node under its number, if it has one. It counts before the nodes that were kept when it
began, of which so many are given, and not before those within it. -/
def keep (number : Option Nat) (node : Node) (earlier : Nat) (feed : Feed) : Feed :=
  match number with
  | some number =>
    let (within, before) := feed.anchored.splitAt (feed.anchored.length - earlier)
    { feed with anchored := within ++ (number, node) :: before }
  | none => feed

def resolveTag? (feed : Feed) (handle suffix : List Char) : Option (List Char) :=
  if handle.isEmpty then some suffix else (feed.handles.get? handle).map (· ++ suffix)

def tag? (feed : Feed) : Option (Option (List Char) × Feed) :=
  match feed.tokens with
  | .tag handle suffix :: _ => do return (some (← feed.resolveTag? handle suffix), feed.advance)
  | _ => some (none, feed)

def anchorIfNext (feed : Feed) : Option Nat × Feed :=
  match feed.tokens with
  | .anchor name :: _ =>
    let (number, feed) := feed.advance.anchor name
    (some number, feed)
  | _ => (none, feed)

/-- Take the anchor and the tag off, in any order. -/
def properties? (feed : Feed) : Option (Properties × Feed) := do
  let (number, feed) := feed.anchorIfNext
  let (tag, feed) ← feed.tag?
  if number.isNone then
    let (number, feed) := feed.anchorIfNext
    return (⟨number, tag⟩, feed)
  return (⟨number, tag⟩, feed)

end Feed

/-- The node that has properties and is left out. -/
def leftOut? (properties : Properties) (feed : Feed) : Option (Node × Feed) :=
  if properties.number.isSome ∨ properties.tag.isSome then
    some (.scalar properties.tag .bare [], feed)
  else none

mutual

/-- Take a node off. Lists and tables laid out by columns may stand here if `laid`, and a list whose
dashes stand at the column of the table around it if `flush`. -/
def node? : Nat → Bool → Bool → Feed → Option (Node × Feed)
  | 0, _, _, _ => none
  | limit + 1, laid, flush, feed =>
    match feed.tokens with
    | .alias name :: _ => do return (.alias (← feed.names.get? name), feed.advance)
    | _ => do
      let earlier := feed.anchored.length
      let (properties, feed) ← feed.properties?
      let (node, feed) ← content? limit laid flush properties feed
      return (node, feed.keep properties.number node earlier)

def content? : Nat → Bool → Bool → Properties → Feed → Option (Node × Feed)
  | 0, _, _, _, _ => none
  | limit + 1, laid, flush, properties, feed => do
    match feed.tokens with
    | .scalar style cs :: _ => return (.scalar properties.tag style cs, feed.advance)
    | .openList :: _ =>
      let (items, feed) ← listItems? limit true feed.advance
      return (.list items, feed)
    | .openTable :: _ =>
      let (entries, feed) ← tableEntries? limit true feed.advance
      return (.table entries, feed)
    | token :: _ =>
      if token = .item ∧ flush then
        let (items, feed) ← flushItems? limit feed
        return (.list items, feed)
      else if token = .blockList ∧ laid then
        let (items, feed) ← blockItems? limit feed.advance
        return (.list items, feed)
      else if token = .blockTable ∧ laid then
        let (entries, feed) ← blockEntries? limit feed.advance
        return (.table entries, feed)
      else leftOut? properties feed
    | [] => leftOut? properties feed

/-- Take a node off, which is left out in front of certain tokens. -/
def nodeBefore? : Nat → Bool → Bool → List Token → Feed → Option (Node × Feed)
  | 0, _, _, _, _ => none
  | limit + 1, laid, flush, ends, feed =>
    if feed.nextIs ends then some (.absent, feed) else node? limit laid flush feed

def blockItems? : Nat → Feed → Option (List Node × Feed)
  | 0, _ => none
  | limit + 1, feed => do
    if feed.nextIs [.blockEnd] then return ([], feed.advance)
    guard (feed.nextIs [.item])
    let (node, feed) ← nodeBefore? limit true false [.item, .blockEnd] feed.advance
    let (nodes, feed) ← blockItems? limit feed
    return (node :: nodes, feed)

def flushItems? : Nat → Feed → Option (List Node × Feed)
  | 0, _ => none
  | limit + 1, feed => do
    if !feed.nextIs [.item] then return ([], feed)
    let (node, feed) ←
      nodeBefore? limit true false [.item, .key, .value, .blockEnd] feed.advance
    let (nodes, feed) ← flushItems? limit feed
    return (node :: nodes, feed)

def blockEntries? : Nat → Feed → Option (List (Node × Node) × Feed)
  | 0, _ => none
  | limit + 1, feed => do
    if feed.nextIs [.blockEnd] then return ([], feed.advance)
    guard (feed.nextIs [.key])
    let ends : List Token := [.key, .value, .blockEnd]
    let (key, feed) ← nodeBefore? limit true true ends feed.advance
    let (value, feed) ←
      if feed.nextIs [.value] then nodeBefore? limit true true ends feed.advance
      else some (.absent, feed)
    let (entries, feed) ← blockEntries? limit feed
    return ((key, value) :: entries, feed)

/-- Take the items of a list between brackets off, and the closing bracket. An item with a key is a
table of one entry. -/
def listItems? : Nat → Bool → Feed → Option (List Node × Feed)
  | 0, _, _ => none
  | limit + 1, isFirst, feed => do
    if feed.nextIs [.closeList] then return ([], feed.advance)
    guard (isFirst || feed.nextIs [.comma])
    let feed := if isFirst then feed else feed.advance
    if feed.nextIs [.closeList] then return ([], feed.advance)
    let (node, feed) ←
      if feed.nextIs [.key] then do
        let (key, feed) ←
          -- a key that is left out takes the next sign with it
          if feed.advance.nextIs [.value, .comma, .closeList] then
            pure (.absent, feed.advance.advance)
          else node? limit false false feed.advance
        let (value, feed) ←
          if feed.nextIs [.value] then
            nodeBefore? limit false false [.comma, .closeList] feed.advance
          else pure (.absent, feed)
        pure (.table [(key, value)], feed)
      else node? limit false false feed
    let (nodes, feed) ← listItems? limit false feed
    return (node :: nodes, feed)

/-- Take the entries of a table between braces off, and the closing brace. What stands without a
key is a key without a value. -/
def tableEntries? : Nat → Bool → Feed → Option (List (Node × Node) × Feed)
  | 0, _, _ => none
  | limit + 1, isFirst, feed => do
    if feed.nextIs [.closeTable] then return ([], feed.advance)
    guard (isFirst || feed.nextIs [.comma])
    let feed := if isFirst then feed else feed.advance
    if feed.nextIs [.closeTable] then return ([], feed.advance)
    let (entry, feed) ←
      if feed.nextIs [.key] then do
        let (key, feed) ←
          nodeBefore? limit false false [.value, .comma, .closeTable] feed.advance
        let (value, feed) ←
          if feed.nextIs [.value] then
            nodeBefore? limit false false [.comma, .closeTable] feed.advance
          else pure (.absent, feed)
        pure ((key, value), feed)
      else do
        let (key, feed) ← node? limit false false feed
        pure ((key, .absent), feed)
    let (entries, feed) ← tableEntries? limit false feed
    return (entry :: entries, feed)

end

/-- Take the directives off. At most one tells the version, and no handle is declared twice. -/
def directives? (versioned : Bool) : List Token → Assoc (List Char) (List Char) →
    Option (Assoc (List Char) (List Char) × List Token)
  | .version major minor :: rest, handles => do
    guard (!versioned && major == 1 && (minor == 1 || minor == 2))
    directives? true rest handles
  | .handle name stem :: rest, handles => do
    guard (handles.get? name).isNone
    directives? versioned rest (handles.set name stem)
  | tokens, handles => some (handles, tokens)

/-- A handle stands for its usual stem, unless it was declared. -/
def withUsual (name stem : String) (handles : Assoc (List Char) (List Char)) :
    Assoc (List Char) (List Char) :=
  if (handles.get? name.toList).isSome then handles else handles.set name.toList stem.toList

def Feed.atDirective (feed : Feed) : Bool :=
  match feed.tokens with
  | .version .. :: _ => true
  | .handle .. :: _ => true
  | _ => false

/-- A document begins with a node; with directives or the sign for its beginning only if they
stand in front. -/
def document? (tokens : List Token) : Option (Node × Feed) := do
  let (declared, rest) ← directives? false tokens .empty
  let handles := withUsual "!!" "tag:yaml.org,2002:" (withUsual "!" "!" declared)
  let feed : Feed := ⟨rest, handles, .empty, []⟩
  let limit := 4 * tokens.length + 4
  match tokens, rest with
  | [], _ => return (.absent, feed)
  | _, .documentStart :: rest =>
    let feed := { feed with tokens := rest }
    if rest.isEmpty ∨ feed.nextIs [.documentStart, .documentEnd] ∨ feed.atDirective then
      return (.absent, feed)
    node? limit true false feed
  | _, rest =>
    -- directives belong to a document whose beginning is marked
    guard (rest.length = tokens.length)
    node? limit true false feed

/-- The document that tokens make up. Behind it nothing but signs for its end may stand. -/
def Document.ofTokens? (tokens : List Token) : Option Document := do
  let (root, feed) ← document? tokens
  guard (feed.tokens.all (· = .documentEnd))
  return ⟨root, feed.anchored⟩

def Document.ofText? (s : String) : Option Document := do
  ofTokens? (← Token.ofSource? (← Glyph.ofText? s))

end PolicyBook.Yaml
