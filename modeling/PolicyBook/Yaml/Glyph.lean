/-!
YAML texts as characters that know where they stand.

How a YAML text is read depends on columns and on what begins a line, so every character is given
its place before reading starts (`Glyph.ofText?`). A text with a control character is refused.
-/
namespace PolicyBook.Yaml

structure Glyph where
  char : Char
  /-- How many lines come before. -/
  line : Nat
  /-- How many characters come before on the line. -/
  column : Nat
  deriving DecidableEq, Repr

def isBreak (c : Char) : Bool :=
  c == '\n' || c == '\u2028' || c == '\u2029'

def isBlank (c : Char) : Bool :=
  c == ' ' || c == '\t'

def byteOrderMark : Char := '\ufeff'

def isAllowed (c : Char) : Bool :=
  c == '\t' || c == '\n' || (' ' ≤ c && c ≤ '~') || ('\u00a0' ≤ c && c ≤ '\ufffd') ||
    '\uffff' < c

/-- Write the different ends of a line as one. -/
def unifyBreaks : List Char → List Char
  | '\r' :: '\n' :: cs => '\n' :: unifyBreaks cs
  | c :: cs => (if c = '\r' ∨ c = '\u0085' then '\n' else c) :: unifyBreaks cs
  | [] => []

namespace Glyph

def placed (line column : Nat) : List Char → List Glyph
  | [] => []
  | c :: cs =>
    ⟨c, line, column⟩ ::
      if isBreak c then placed (line + 1) 0 cs else placed line (column + 1) cs

def ofText? (s : String) : Option (List Glyph) :=
  let cs := unifyBreaks s.toList
  if cs.all isAllowed then some (placed 0 0 cs) else none

end Glyph

/-- The rest of a text that is being read. -/
abbrev Source := List Glyph

namespace Source

def atGap : Source → Bool
  | [] => true
  | g :: _ => isBlank g.char || isBreak g.char

def atAny (cs : String) : Source → Bool
  | [] => false
  | g :: _ => cs.toList.contains g.char

/-- Whether a line begins here that consists of a character three times, or goes on after a gap. -/
def atMarker (c : Char) : Source → Bool
  | a :: b :: d :: rest =>
    a.column == 0 && a.char == c && b.char == c && d.char == c && atGap rest
  | _ => false

/-- Whether a document begins or ends here. -/
def atBoundary (source : Source) : Bool :=
  source.atMarker '-' || source.atMarker '.'

def afterBlanks (source : Source) : Source :=
  source.dropWhile fun g => isBlank g.char

/-- Drop the rest of a line that holds nothing but a comment. -/
def afterLine? (source : Source) : Option Source :=
  match afterBlanks source with
  | [] => some []
  | g :: rest =>
    if isBreak g.char then some rest
    else if g.char = '#' then some ((rest.dropWhile fun g => !isBreak g.char).drop 1)
    else none

end Source

end PolicyBook.Yaml
