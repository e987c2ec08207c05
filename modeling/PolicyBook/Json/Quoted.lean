import PolicyBook.Text.Numeral
/-!
Texts between quotation marks, as JSON writes and reads them.

Writing escapes the quotation mark, the backslash and the characters below U+0020, and nothing else:
`escaped` says how each character is written, and every character has one written form. Reading also
takes the other escapes: `\/`, and any code point as one or two groups of four hexadecimal digits.

The grammar admits any group of four digits, so what stands between quotation marks is taken off as
pieces first (`unquoted?`). The pieces make up a text unless there is half a character alone among
them (`Piece.text?`).
-/
namespace PolicyBook.Json

open Text

def escaped (c : Char) : List Char :=
  if c = '"' then ['\\', '"']
  else if c = '\\' then ['\\', '\\']
  else if c = '\x08' then ['\\', 'b']
  else if c = '\x0c' then ['\\', 'f']
  else if c = '\n' then ['\\', 'n']
  else if c = '\r' then ['\\', 'r']
  else if c = '\t' then ['\\', 't']
  else if c.toNat < 0x20 then ['\\', 'u', '0', '0'] ++ hexByte c.toNat.toUInt8
  else [c]

def quote (s : String) : List Char :=
  '"' :: s.toList.flatMap escaped ++ ['"']

/-- Take four hexadecimal digits off and read them as a number. -/
def codeUnit? : List Char → Option (Nat × List Char)
  | a :: b :: c :: d :: rest => do
    let a ← hexDigit? a
    let b ← hexDigit? b
    let c ← hexDigit? c
    let d ← hexDigit? d
    return (((a.val * 16 + b.val) * 16 + c.val) * 16 + d.val, rest)
  | _ => none

inductive Piece where
  | char (c : Char)
  /-- The first half of a character outside the basic plane. -/
  | high (unit : Nat)
  /-- The second half of such a character. -/
  | low (unit : Nat)
  deriving DecidableEq, Repr

/-- The piece that a group of four digits stands for. -/
def Piece.ofUnit (unit : Nat) : Piece :=
  if 0xD800 ≤ unit ∧ unit ≤ 0xDBFF then high unit
  else if 0xDC00 ≤ unit ∧ unit ≤ 0xDFFF then low unit
  else char (Char.ofNat unit)

/-- The text that pieces make up; half a character alone makes up none. -/
def Piece.text? : List Piece → Option (List Char)
  | [] => some []
  | char c :: rest => (Piece.text? rest).map (c :: ·)
  | high a :: low b :: rest =>
    (Piece.text? rest).map (Char.ofNat (0x10000 + (a - 0xD800) * 0x400 + (b - 0xDC00)) :: ·)
  | _ => none

def escape? : List Char → Option (Piece × List Char)
  | [] => none
  | c :: rest =>
    if c = '"' ∨ c = '\\' ∨ c = '/' then some (.char c, rest)
    else if c = 'b' then some (.char '\x08', rest)
    else if c = 'f' then some (.char '\x0c', rest)
    else if c = 'n' then some (.char '\n', rest)
    else if c = 'r' then some (.char '\r', rest)
    else if c = 't' then some (.char '\t', rest)
    else if c = 'u' then (codeUnit? rest).map fun (unit, rest) => (.ofUnit unit, rest)
    else none

/-- Take the pieces up to the closing quotation mark off, with the mark. The first argument bounds
how many pieces are taken. -/
def unquoted? : Nat → List Char → Option (List Piece × List Char)
  | 0, _ => none
  | _ + 1, [] => none
  | limit + 1, c :: rest =>
    if c = '"' then some ([], rest)
    else if c = '\\' then do
      let (d, rest) ← escape? rest
      let (ds, rest) ← unquoted? limit rest
      return (d :: ds, rest)
    else if c.toNat < 0x20 then none
    else do
      let (ds, rest) ← unquoted? limit rest
      return (.char c :: ds, rest)

end PolicyBook.Json
