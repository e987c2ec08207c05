import PolicyBook.Yaml.Block
import PolicyBook.Yaml.Scalar
import PolicyBook.Yaml.Token
/-!
The tokens of a YAML text.

Outside of brackets, columns tell lists and tables apart: one that begins at a column ends in front
of the first sign that stands further left. Whether something is a key shows only at the colon
behind it. So the place of whatever may turn out to be a key is remembered, and the token that says
so is put in there later. A key stands on one line with its colon, at most 1024 characters before
it; one that stands at the very column of its table must come to have a colon.

`Token.ofSource?` runs through a whole text.
-/
namespace PolicyBook.Yaml

/-- A place at which a key may have begun. -/
structure Pending where
  line : Nat
  column : Nat
  /-- How many tokens come before. -/
  position : Nat
  /-- Whether nothing but a key may stand there. -/
  required : Bool

/-- How far a key may stand before its colon. -/
def maxKeyLength : Nat := 1024

/-- Whether a colon at a place comes too late for a key. -/
def Pending.isPast (p : Pending) (g : Glyph) : Bool :=
  p.line < g.line || p.column + maxKeyLength < g.column

structure Lexer where
  source : Source
  tokens : Array Token
  /-- The columns of the lists and tables that are open outside of brackets, innermost first. -/
  columns : List Nat
  pending : Option Pending
  /-- For every open bracket, innermost first, where a key may have begun that contains it. -/
  outer : List (Option Pending)
  mayKey : Bool

namespace Lexer

def start (source : Source) : Lexer := ⟨source, #[], [], none, [], true⟩

def bracketed (l : Lexer) : Bool := !l.outer.isEmpty

/-- The least column at which the innermost list or table can contain something. -/
def least (l : Lexer) : Nat := (l.columns.head?.map (· + 1)).getD 0

def emit (token : Token) (rest : Source) (l : Lexer) : Lexer :=
  { l with tokens := l.tokens.push token, source := rest }

/-- Drop spaces, comments and line breaks. Tabs are dropped where no key may begin. -/
def afterGap (bracketed : Bool) (mayKey commented : Bool) : Source → Bool × Source
  | [] => (mayKey, [])
  | g :: rest =>
    if isBreak g.char then afterGap bracketed (mayKey || !bracketed) false rest
    else if commented then afterGap bracketed mayKey true rest
    else if g.char = ' ' ∨ (g.char = '\t' ∧ (bracketed ∨ !mayKey)) ∨
        (g.char = byteOrderMark ∧ g.column = 0) then
      afterGap bracketed mayKey false rest
    else if g.char = '#' then afterGap bracketed mayKey true rest
    else (mayKey, g :: rest)

def skip (l : Lexer) : Lexer :=
  let (mayKey, source) := afterGap l.bracketed l.mayKey false l.source
  { l with mayKey, source }

/-- No key has begun, after all; one that is required is missed. -/
def release? (l : Lexer) : Option Lexer :=
  if l.pending.any Pending.required then none else some { l with pending := none }

/-- A key may begin here, if one may begin at all. -/
def reserve? (g : Glyph) (l : Lexer) : Option Lexer := do
  if !l.mayKey then return l
  let l ← l.release?
  return { l with
    pending := some {
      line := g.line
      column := g.column
      position := l.tokens.size
      required := !l.bracketed && l.columns.head? == some g.column } }

/-- Forget the keys for which a colon at a place comes too late. -/
def expire? (g : Glyph) (l : Lexer) : Option Lexer :=
  if (l.pending :: l.outer).any fun p => p.any fun p => p.required && p.isPast g then none
  else
    let current (p : Option Pending) : Option Pending := p.filter fun p => !p.isPast g
    some { l with pending := current l.pending, outer := l.outer.map current }

/-- End all lists and tables that begin at a column or behind it. -/
def unroll (column : Nat) (l : Lexer) : Lexer :=
  if l.bracketed then l
  else
    let (ended, columns) := l.columns.span (column ≤ ·)
    { l with columns, tokens := l.tokens ++ ended.toArray.map fun _ => Token.blockEnd }

/-- Begin a list or a table at a column, unless it goes on there; its token is put in at a
position. -/
def roll (column position : Nat) (token : Token) (l : Lexer) : Lexer :=
  if l.bracketed ∨ l.columns.any (column ≤ ·) then l
  else
    { l with
      columns := column :: l.columns
      tokens := l.tokens.insertIdxIfInBounds position token }

/-- Outside of brackets, begin a list or a table here unless it goes on. -/
def rollHere? (g : Glyph) (token : Token) (l : Lexer) : Option Lexer :=
  if l.bracketed then some l
  else if l.mayKey then some (l.roll g.column l.tokens.size token)
  else none

def directive? (rest : Source) (l : Lexer) : Option Lexer := do
  let l ← (l.unroll 0).release?
  let (token, rest) ← rest.directive?
  return { l with mayKey := false }.emit token rest

def boundary? (token : Token) (l : Lexer) : Option Lexer := do
  let l ← (l.unroll 0).release?
  return { l with mayKey := false }.emit token (l.source.drop 3)

def opening? (g : Glyph) (token : Token) (rest : Source) (l : Lexer) : Option Lexer := do
  let l ← l.reserve? g
  return { l with pending := none, outer := l.pending :: l.outer, mayKey := true }.emit token rest

def closing? (token : Token) (rest : Source) (l : Lexer) : Option Lexer := do
  let l ← l.release?
  return { l with
    pending := l.outer.head?.join
    outer := l.outer.tail
    mayKey := false }.emit token rest

def comma? (rest : Source) (l : Lexer) : Option Lexer := do
  let l ← l.release?
  return { l with mayKey := true }.emit .comma rest

def dash? (g : Glyph) (rest : Source) (l : Lexer) : Option Lexer := do
  let l ← (← l.rollHere? g .blockList).release?
  return { l with mayKey := true }.emit .item rest

def question? (g : Glyph) (rest : Source) (l : Lexer) : Option Lexer := do
  let l ← (← l.rollHere? g .blockTable).release?
  return { l with mayKey := !l.bracketed }.emit .key rest

/-- A colon, which makes what may have been a key one. -/
def colon? (g : Glyph) (rest : Source) (l : Lexer) : Option Lexer :=
  match l.pending with
  | some p =>
    let l := { l with tokens := l.tokens.insertIdxIfInBounds p.position .key }
    let l := l.roll p.column p.position .blockTable
    some ({ l with pending := none, mayKey := false }.emit .value rest)
  | none => do
    let l ← l.rollHere? g .blockTable
    return { l with mayKey := !l.bracketed }.emit .value rest

/-- What is read by a function and may be a key or the beginning of one. -/
def inLine? (g : Glyph) (taken : Option (Token × Source)) (l : Lexer) : Option Lexer := do
  let l ← l.reserve? g
  let (token, rest) ← taken
  return { l with mayKey := false }.emit token rest

def block? (isFolded : Bool) (rest : Source) (l : Lexer) : Option Lexer := do
  let l ← l.release?
  let (cs, rest) ← Yaml.block? isFolded l.least rest
  return { l with mayKey := true }.emit (.scalar (if isFolded then .folded else .literal) cs) rest

/-- A bare scalar. Behind a line break a key may begin again. -/
def bare? (g : Glyph) (l : Lexer) : Option Lexer := do
  let l ← l.reserve? g
  let (cs, broken, rest) ← Yaml.bare? l.bracketed l.least .nothing l.source
  return { l with mayKey := broken }.emit (.scalar .bare cs) rest

def next? (g : Glyph) (rest : Source) (l : Lexer) : Option Lexer :=
  let here : Source := g :: rest
  let isSign : Bool := l.bracketed || rest.atGap
  if g.column = 0 ∧ g.char = '%' then l.directive? rest
  else if here.atMarker '-' then l.boundary? .documentStart
  else if here.atMarker '.' then l.boundary? .documentEnd
  else if g.char = '[' then l.opening? g .openList rest
  else if g.char = '\x7b' then l.opening? g .openTable rest
  else if g.char = ']' then l.closing? .closeList rest
  else if g.char = '\x7d' then l.closing? .closeTable rest
  else if g.char = ',' then l.comma? rest
  else if g.char = '-' ∧ rest.atGap then l.dash? g rest
  else if g.char = '?' ∧ isSign then l.question? g rest
  else if g.char = ':' ∧ isSign then l.colon? g rest
  else if g.char = '*' then l.inLine? g (rest.anchor?.map fun (cs, rest) => (.alias cs, rest))
  else if g.char = '&' then l.inLine? g (rest.anchor?.map fun (cs, rest) => (.anchor cs, rest))
  else if g.char = '!' then l.inLine? g (rest.tag? l.bracketed)
  else if g.char = '|' ∧ !l.bracketed then l.block? false rest
  else if g.char = '>' ∧ !l.bracketed then l.block? true rest
  else if g.char = '\'' then
    l.inLine? g ((apostrophed? .nothing rest).map fun (cs, rest) => (.scalar .quoted cs, rest))
  else if g.char = '"' then
    l.inLine? g ((quoted? .nothing .text rest).map fun (cs, rest) => (.scalar .quoted cs, rest))
  else if here.atBare l.bracketed then l.bare? g
  else none

/-- Take all tokens off; the first argument bounds their number. -/
def run? : Nat → Lexer → Option (List Token)
  | 0, _ => none
  | limit + 1, l => do
    let l := l.skip
    match l.source with
    | [] => return (← (l.unroll 0).release?).tokens.toList
    | g :: rest => run? limit (← ((← l.expire? g).unroll (g.column + 1)).next? g rest)

end Lexer

/-- The tokens of a text. Every one but those that end something takes a character. -/
def Token.ofSource? (source : Source) : Option (List Token) :=
  (Lexer.start source).run? (source.length + 1)

end PolicyBook.Yaml
