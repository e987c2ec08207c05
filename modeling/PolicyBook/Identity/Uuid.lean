import PolicyBook.Text.Numeral
/-!
Universally unique identifiers.

An identifier is thirty-two hexadecimal digits. Printing writes them in lower case in groups of 8,
4, 4, 4 and 12 (`Uuid.text`). Reading takes that form in either case, also between braces or behind
`urn:uuid:`, and the digits without hyphens (`Uuid.ofText?`). Identifiers are ordered as their
digits are, most significant first.
-/
namespace PolicyBook

structure Uuid where
  /-- The hexadecimal digits, most significant first. -/
  digits : Vector (Fin 16) 32
  deriving DecidableEq

namespace Uuid

instance : LT Uuid := ⟨fun u v => u.digits.toList < v.digits.toList⟩

instance (u v : Uuid) : Decidable (u < v) :=
  inferInstanceAs (Decidable (u.digits.toList < v.digits.toList))

def ofDigits? (digits : List (Fin 16)) : Option Uuid :=
  if h : digits.toArray.size = 32 then some ⟨⟨digits.toArray, h⟩⟩ else none

/-- Put hyphens after the eighth, twelfth, sixteenth and twentieth character. -/
def hyphenated (cs : List Char) : List Char :=
  cs.take 8 ++ '-' :: (cs.drop 8).take 4 ++ '-' :: (cs.drop 12).take 4 ++
    '-' :: (cs.drop 16).take 4 ++ '-' :: cs.drop 20

def text (u : Uuid) : String :=
  String.ofList (hyphenated (u.digits.toList.map Text.hexDigit))

def ofHex? (cs : List Char) : Option Uuid := do
  let digits ← cs.mapM Text.hexDigit?
  ofDigits? digits

/-- Read digits in groups: the text must be the hyphenated form of its own digits. -/
def ofHyphenated? (cs : List Char) : Option Uuid :=
  let digits := cs.filter (· != '-')
  if cs = hyphenated digits then ofHex? digits else none

/-- What stands between braces or behind `urn:uuid:`, if the text has such a frame. -/
def unframed (cs : List Char) : List Char :=
  if cs.head? = some '\x7b' ∧ cs.getLast? = some '\x7d' then cs.tail.dropLast
  else if (cs.take 9).map Char.toUpper = "URN:UUID:".toList then cs.drop 9
  else cs

/-- Read an identifier in any of its spellings. -/
def ofText? (s : String) : Option Uuid :=
  match ofHex? s.toList with
  | some u => some u
  | none => ofHyphenated? (unframed s.toList)

end Uuid

end PolicyBook
