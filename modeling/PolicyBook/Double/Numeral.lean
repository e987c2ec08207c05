import PolicyBook.Double
import PolicyBook.Text.Scan
/-!
From decimal numerals to floating-point numbers.

Whatever the number of its digits, a numeral stands for the number that is nearest to it
(`Double.ofDecimal?`). `Double.ofNumeral?` reads whole texts; infinities and what is no number have
numerals too.
-/
namespace PolicyBook.Double

open Text

/-- The number nearest to `significand * 10 ^ exponent`, unless it is too large for one. -/
def ofDecimal? (significand : Nat) (exponent : Int) : Option Double :=
  if significand = 0 then some (zero false)
  -- a significand has no more decimal digits than binary ones
  else if 400 < exponent then none
  else if exponent + significand.log2 < -400 then some (zero false)
  else nearest? (significand * tenTo exponent.toNat) (tenTo (-exponent).toNat)

inductive Reading where
  | finite (x : Double)
  /-- An infinity, or what is no number at all. -/
  | unbounded

/-- The exponent part of a numeral: `e` or `E`, an optional sign and digits. -/
def exponentPart? : List Char → Option Int
  | [] => some 0
  | c :: cs => do
    guard (c = 'e' ∨ c = 'E')
    match cs with
    | '-' :: ds => let n ← natural? ds; return -n
    | '+' :: ds => let n ← natural? ds; return n
    | ds => let n ← natural? ds; return n

def magnitude? (cs : List Char) : Option Reading := do
  let whole := cs.takeWhile Char.isDigit
  let rest := cs.dropWhile Char.isDigit
  let fraction := if rest.head? = some '.' then rest.tail.takeWhile Char.isDigit else []
  let rest := if rest.head? = some '.' then rest.tail.dropWhile Char.isDigit else rest
  let significand ← natural? (whole ++ fraction)
  let e ← exponentPart? rest
  match ofDecimal? significand (e - fraction.length) with
  | some x => return .finite x
  | none => return .unbounded

def ofNumeral? (s : String) : Option Reading := do
  let cs := s.toList
  let signed := cs.head? = some '-' ∨ cs.head? = some '+'
  let body := if signed then cs.tail else cs
  if (["INF", "INFINITY", "NAN"].map String.toList).contains (body.map Char.toUpper) then
    return .unbounded
  match ← magnitude? body with
  | .finite x => return .finite (x.withSign (cs.head? = some '-'))
  | .unbounded => return .unbounded

end PolicyBook.Double
