import PolicyBook.Text.Numeral
import PolicyBook.Yaml.Glyph
/-!
Reading scalars that fill lines of their own.

Behind `|` the lines are kept, behind `>` they are folded: a break between two lines that do not
begin with a blank becomes a space, or goes if empty lines follow. The first line sets the
indentation unless the heading does. The heading also says what becomes of the breaks at the end.
-/
namespace PolicyBook.Yaml

/-- What becomes of the line breaks at the end of a block. -/
inductive Chomp where
  | strip
  | clip
  | keep
  deriving DecidableEq, Repr

/-- What becomes of the last line break, and of those behind it. -/
def Chomp.tail (last others : List Char) : Chomp → List Char
  | strip => []
  | clip => last
  | keep => last ++ others

namespace Source

def chomp? : Source → Option Chomp × Source
  | g :: rest =>
    if g.char = '+' then (some .keep, rest)
    else if g.char = '-' then (some .strip, rest)
    else (none, g :: rest)
  | [] => (none, [])

/-- Take the digit for the indentation off, if it is there; a zero is refused. -/
def width? : Source → Option (Option Nat × Source)
  | g :: rest =>
    match Text.digit? g.char with
    | some 0 => none
    | some d => some (some d, rest)
    | none => some (none, g :: rest)
  | [] => some (none, [])

/-- Take the heading of a block off: the indentation, if it is set, and what becomes of the end. -/
def heading? (source : Source) : Option (Option Nat × Chomp × Source) := do
  let (before, source) := chomp? source
  let (width, source) ← width? source
  let (behind, source) := if before.isSome then (none, source) else chomp? source
  let source ← afterLine? source
  return (width, (before.or behind).getD .clip, source)

end Source

/-- Take empty lines off, and the indentation of the line that follows: the line breaks, and the
largest column that was reached. An unknown indentation ends at the first character that is no
space. A tab is no indentation. -/
def emptyLines? (width : Option Nat) : Source → Option (List Char × Nat × Source)
  | [] => some ([], 0, [])
  | g :: rest =>
    let indenting := width.all (g.column < ·)
    if g.char = ' ' ∧ indenting then do
      let (breaks, reached, rest) ← emptyLines? width rest
      return (breaks, max (g.column + 1) reached, rest)
    else if g.char = '\t' ∧ indenting then none
    else if isBreak g.char then do
      let (breaks, reached, rest) ← emptyLines? width rest
      return (g.char :: breaks, max g.column reached, rest)
    else some ([], g.column, g :: rest)

def joint (isFolded : Bool) (last others : List Char) (isBesideBlank : Bool) : List Char :=
  if isFolded && last == ['\n'] && !isBesideBlank then
    if others.isEmpty then [' '] else others
  else last ++ others

/-- Take the lines of a block off that have an indentation. The line breaks met last are given, and
whether the last line began with a blank; the first argument bounds the number of lines. -/
def blockLines? (isFolded : Bool) (chomp : Chomp) (width : Nat) :
    Nat → List Char → List Char → Bool → Source → Option (List Char × Source)
  | 0, _, _, _, _ => none
  | _ + 1, last, others, _, [] => some (chomp.tail last others, [])
  | limit + 1, last, others, wasBlank, g :: rest =>
    if g.column = width then do
      let isBlankNow := isBlank g.char
      let (line, rest) := (g :: rest).span fun g => !isBreak g.char
      let ending := (rest.take 1).map Glyph.char
      let (breaks, _, rest) ← emptyLines? (some width) (rest.drop 1)
      let (text, rest) ← blockLines? isFolded chomp width limit ending breaks isBlankNow rest
      return (joint isFolded last others (wasBlank || isBlankNow) ++ line.map Glyph.char ++ text,
        rest)
    else some (chomp.tail last others, g :: rest)

/-- Take a block off behind its sign. Its lines are indented at least to a given column. -/
def block? (isFolded : Bool) (least : Nat) (source : Source) : Option (List Char × Source) := do
  let (width, chomp, source) ← source.heading?
  let (breaks, reached, source) ← emptyLines? (width.map fun d => least - 1 + d) source
  let column := (width.map fun d => least - 1 + d).getD (max reached (max least 1))
  blockLines? isFolded chomp column (source.length + 1) [] breaks false source

end PolicyBook.Yaml
