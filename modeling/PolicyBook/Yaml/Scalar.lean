import PolicyBook.Text.Numeral
import PolicyBook.Yaml.Glyph
/-!
Reading scalars that may go on over several lines.

What separates two words is kept as it is on one line, and folded where the line breaks: one break
becomes a space, and of more breaks all but the first stay. A bare scalar ends where something else
can begin; a quoted one ends at its quotation mark.
-/
namespace PolicyBook.Yaml

/-- What stands between two words of a scalar. -/
inductive Between where
  | blanks (cs : List Char)
  /-- Line breaks; the first one is missing when it was escaped. -/
  | breaks (first : Option Char) (others : List Char)

namespace Between

def nothing : Between := blanks []

/-- What the words are joined by. -/
def folded : Between → List Char
  | blanks cs => cs
  | breaks (some '\n') [] => [' ']
  | breaks (some '\n') others => others
  | breaks (some c) others => c :: others
  | breaks none others => others

def addBlank (c : Char) : Between → Between
  | blanks cs => blanks (cs ++ [c])
  | between => between

def addBreak (c : Char) : Between → Between
  | blanks _ => breaks (some c) []
  | breaks first others => breaks first (others ++ [c])

def isBroken : Between → Bool
  | blanks _ => false
  | breaks .. => true

def isNothing : Between → Bool
  | blanks [] => true
  | _ => false

end Between

/-- Whether a character is a bracket or separates items between brackets. -/
def isFlowSign (c : Char) : Bool :=
  c == ',' || c == '[' || c == ']' || c == '\x7b' || c == '\x7d'

namespace Source

def atBare (bracketed : Bool) : Source → Bool
  | [] => false
  | g :: rest =>
    if g.char = '-' then !atGap rest
    else if g.char = '?' ∨ g.char = ':' then !bracketed && !atGap rest
    else !atGap (g :: rest) && !isFlowSign g.char && !"#&*!|>'\"%@`".toList.contains g.char

/-- Whether a bare scalar ends at this character although its line goes on. -/
def endsBare (bracketed : Bool) : Source → Bool
  | [] => true
  | g :: rest => (g.char == ':' && atGap rest) || (bracketed && isFlowSign g.char)

/-- Whether a colon stands here that is neither part of a word nor allowed. -/
def atStrayColon (bracketed : Bool) : Source → Bool
  | g :: next :: _ => bracketed && g.char == ':' && (isFlowSign next.char || next.char == '?')
  | _ => false

end Source

/-- Take a bare scalar off, and what separates it from what follows. Outside of brackets its lines
begin at a least column; a tab in front of that column is refused anywhere. Also answered is whether
the line was broken behind the scalar. -/
def bare? (bracketed : Bool) (least : Nat) (between : Between) :
    Source → Option (List Char × Bool × Source)
  | [] => some ([], between.isBroken, [])
  | g :: rest =>
    if isBreak g.char then bare? bracketed least (between.addBreak g.char) rest
    else if isBlank g.char then
      if between.isBroken ∧ g.char = '\t' ∧ g.column < least then none
      else bare? bracketed least (between.addBlank g.char) rest
    else if between.isBroken ∧ !bracketed ∧ g.column < least then some ([], true, g :: rest)
    else if !between.isNothing ∧ (g.char = '#' ∨ Source.atBoundary (g :: rest)) then
      some ([], between.isBroken, g :: rest)
    else if Source.atStrayColon bracketed (g :: rest) then none
    else if Source.endsBare bracketed (g :: rest) then some ([], between.isBroken, g :: rest)
    else do
      let (cs, broken, rest) ← bare? bracketed least .nothing rest
      return (between.folded ++ g.char :: cs, broken, rest)

/-- Take a scalar off up to its closing apostrophe; two apostrophes are one. -/
def apostrophed? (between : Between) : Source → Option (List Char × Source)
  | [] => none
  | g :: rest =>
    if Source.atBoundary (g :: rest) then none
    else if isBreak g.char then apostrophed? (between.addBreak g.char) rest
    else if isBlank g.char then apostrophed? (between.addBlank g.char) rest
    else if g.char = '\'' then
      match rest with
      | next :: rest =>
        if next.char = '\'' then do
          let (cs, rest) ← apostrophed? .nothing rest
          return (between.folded ++ '\'' :: cs, rest)
        else some (between.folded, next :: rest)
      | [] => some (between.folded, [])
    else do
      let (cs, rest) ← apostrophed? .nothing rest
      return (between.folded ++ g.char :: cs, rest)

/-- Where reading stands inside quotation marks. -/
inductive Inside where
  | text
  | escape
  /-- In front of so many digits of a code point, behind those that make up a number. -/
  | digits (left number : Nat)

def escapes : List (Char × Char) :=
  [('0', '\x00'), ('a', '\x07'), ('b', '\x08'), ('t', '\t'), ('\t', '\t'), ('n', '\n'),
    ('v', '\x0b'), ('f', '\x0c'), ('r', '\r'), ('e', '\x1b'), (' ', ' '), ('"', '"'), ('/', '/'),
    ('\\', '\\'), ('N', '\u0085'), ('_', '\u00a0'), ('L', '\u2028'), ('P', '\u2029')]

def escapeWidths : List (Char × Nat) :=
  [('x', 2), ('u', 4), ('U', 8)]

def ofCodePoint? (n : Nat) : Option Char :=
  if n.isValidChar then some (Char.ofNat n) else none

def quoted? (between : Between) : Inside → Source → Option (List Char × Source)
  | _, [] => none
  | .text, g :: rest =>
    if Source.atBoundary (g :: rest) then none
    else if isBreak g.char then quoted? (between.addBreak g.char) .text rest
    else if isBlank g.char then quoted? (between.addBlank g.char) .text rest
    else if g.char = '"' then some (between.folded, rest)
    else if g.char = '\\' then do
      let (cs, rest) ← quoted? .nothing .escape rest
      return (between.folded ++ cs, rest)
    else do
      let (cs, rest) ← quoted? .nothing .text rest
      return (between.folded ++ g.char :: cs, rest)
  | .escape, g :: rest =>
    if isBreak g.char then quoted? (.breaks none []) .text rest
    else
      match escapes.lookup g.char, escapeWidths.lookup g.char with
      | some c, _ => do
        let (cs, rest) ← quoted? .nothing .text rest
        return (c :: cs, rest)
      | none, some width => quoted? .nothing (.digits width 0) rest
      | none, none => none
  | .digits left number, g :: rest => do
    let d ← Text.hexDigit? g.char
    let number := 16 * number + d.val
    if left ≤ 1 then
      let c ← ofCodePoint? number
      let (cs, rest) ← quoted? .nothing .text rest
      return (c :: cs, rest)
    else quoted? .nothing (.digits (left - 1) number) rest

end PolicyBook.Yaml
