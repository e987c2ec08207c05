import PolicyBook.Yaml
import PolicyBook.Yaml.Glyph
/-!
The signs of a YAML text.

A token is a sign or a scalar. Some tokens are not written: where columns show that a list or a
table begins, that a key precedes a colon, or that something ends, a token says so.

The names of anchors, the tags and the directives are read here.
-/
namespace PolicyBook.Yaml

inductive Token where
  | version (major minor : Nat)
  /-- A handle for tags, and the stem for which it stands. -/
  | handle (name stem : List Char)
  | documentStart
  | documentEnd
  /-- A list laid out by columns begins. -/
  | blockList
  | blockTable
  | blockEnd
  | openList
  | closeList
  | openTable
  | closeTable
  | item
  | comma
  | key
  | value
  | alias (name : List Char)
  | anchor (name : List Char)
  | tag (handle suffix : List Char)
  | scalar (style : Style) (text : List Char)
  deriving DecidableEq, Repr

def isNameChar (c : Char) : Bool :=
  c.isAlphanum || c == '_' || c == '-'

def isTagChar (c : Char) : Bool :=
  isNameChar c || ";/?:@&=+$.%!~*'()".toList.contains c

namespace Source

/-- Take a name off; it may be empty. -/
def name (source : Source) : List Char × Source :=
  let (front, rest) := source.span fun g => isNameChar g.char
  (front.map Glyph.char, rest)

def anchor? (source : Source) : Option (List Char × Source) := do
  let (name, rest) := source.name
  guard (!name.isEmpty && (rest.atGap || rest.atAny "?:,]\x7d%@`"))
  return (name, rest)

/-- Take a byte off that is written as two hexadecimal digits behind a percent sign. -/
def byte? : Source → Option (Nat × Source)
  | p :: a :: b :: rest => do
    guard (p.char = '%')
    let a ← Text.hexDigit? a.char
    let b ← Text.hexDigit? b.char
    return (16 * a.val + b.val, rest)
  | _ => none

/-- How many bytes follow the first byte of a character. -/
def trailing? (byte : Nat) : Option Nat :=
  if byte < 0x80 then some 0
  else if byte < 0xC0 then none
  else if byte < 0xE0 then some 1
  else if byte < 0xF0 then some 2
  else if byte < 0xF8 then some 3
  else none

def afterTrailing? : Nat → Source → Option Source
  | 0, source => some source
  | n + 1, source => do
    let (byte, rest) ← byte? source
    guard (0x80 ≤ byte ∧ byte < 0xC0)
    afterTrailing? n rest

/-- Take a character off that is written byte by byte. One that takes more than a byte stands in no
tag that means anything here, so all of them are taken for one. -/
def percent? (source : Source) : Option (Char × Source) := do
  let (byte, rest) ← byte? source
  let rest ← afterTrailing? (← trailing? byte) rest
  return (if byte < 0x80 then Char.ofNat byte else '\ufffd', rest)

/-- Take the characters of a tag off; between angle brackets there are more of them. The first
argument bounds their number. -/
def tagChars? (angled : Bool) : Nat → Source → Option (List Char × Source)
  | 0, source => some ([], source)
  | _ + 1, [] => some ([], [])
  | limit + 1, g :: rest =>
    if g.char = '%' then do
      let (c, rest) ← percent? (g :: rest)
      let (cs, rest) ← tagChars? angled limit rest
      return (c :: cs, rest)
    else if isTagChar g.char ∨ (angled ∧ ",[]".toList.contains g.char) then do
      let (cs, rest) ← tagChars? angled limit rest
      return (g.char :: cs, rest)
    else some ([], g :: rest)

def someTagChars? (angled : Bool) (source : Source) : Option (List Char × Source) := do
  let (cs, rest) ← tagChars? angled source.length source
  guard (!cs.isEmpty)
  return (cs, rest)

/-- Take a tag off behind its first sign: it stands between angle brackets, behind a handle, or
alone. -/
def tagToken? (source : Source) : Option (Token × Source) := do
  if source.atAny "<" then
    let (suffix, rest) ← someTagChars? true (source.drop 1)
    guard (rest.atAny ">")
    return (.tag [] suffix, rest.drop 1)
  let (name, rest) := source.name
  if rest.atAny "!" then
    let (suffix, rest) ← someTagChars? false (rest.drop 1)
    return (.tag ('!' :: name ++ ['!']) suffix, rest)
  let (more, rest) ← tagChars? false rest.length rest
  return (if (name ++ more).isEmpty then .tag [] ['!'] else .tag ['!'] (name ++ more), rest)

/-- Take a tag off behind its first sign. A gap follows, or a comma between brackets. -/
def tag? (bracketed : Bool) (source : Source) : Option (Token × Source) := do
  let (token, rest) ← source.tagToken?
  guard (rest.atGap || (bracketed && rest.atAny ","))
  return (token, rest)

def shortNumber? (source : Source) : Option (Nat × Source) := do
  let (front, rest) := source.span fun g => g.char.isDigit
  guard (front.length ≤ 9)
  let n ← Text.natural? (front.map Glyph.char)
  return (n, rest)

def version? (source : Source) : Option (Token × Source) := do
  let (major, rest) ← source.shortNumber?
  guard (rest.atAny ".")
  let (minor, rest) ← shortNumber? (rest.drop 1)
  return (.version major minor, rest)

def handle? (source : Source) : Option (Token × Source) := do
  guard (source.atAny "!")
  let (name, rest) := Source.name (source.drop 1)
  guard (name.isEmpty || rest.atAny "!")
  let handle := '!' :: name ++ (if rest.atAny "!" then ['!'] else [])
  let rest : Source := if rest.atAny "!" then rest.drop 1 else rest
  guard (rest.atAny " \t")
  let (stem, rest) ← someTagChars? true rest.afterBlanks
  guard rest.atGap
  return (.handle handle stem, rest)

def directive? (source : Source) : Option (Token × Source) := do
  let (name, rest) := source.name
  guard rest.atGap
  let (token, rest) ←
    if name = "YAML".toList then version? rest.afterBlanks
    else if name = "TAG".toList then handle? rest.afterBlanks
    else none
  return (token, ← rest.afterLine?)

end Source

end PolicyBook.Yaml
