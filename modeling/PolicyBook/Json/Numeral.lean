import PolicyBook.Double.Numeral
import PolicyBook.Json
/-!
Numerals of JSON.

A numeral has a sign, whole digits, and perhaps a fraction and an exponent. One without fraction and
exponent is an integer when it fits into sixty-four bits; every other numeral, and minus zero, is
the floating-point number nearest to it.
-/
namespace PolicyBook.Json

open Text

structure Numeral where
  negative : Bool
  whole : List Nat
  /-- The digits behind the point; without a point there are none. -/
  fraction : List Nat
  exponent : Option Int
  deriving DecidableEq, Repr

namespace Numeral

/-- The floating-point number nearest to a numeral, unless it is too large. -/
def double? (n : Numeral) : Option Double := do
  let x ← Double.ofDecimal? (ofDigits (n.whole ++ n.fraction))
    (n.exponent.getD 0 - n.fraction.length)
  return x.withSign n.negative

def value? (n : Numeral) : Option Json :=
  let magnitude := ofDigits n.whole
  if n.fraction.isEmpty ∧ n.exponent.isNone ∧
      (if n.negative then 0 < magnitude ∧ magnitude ≤ twoTo 63 else magnitude ≤ maxWord) then
    some (.int (if n.negative then -magnitude else magnitude))
  else n.double?.map Json.float

end Numeral

/-- Take whole digits off: a single zero, or digits that do not begin with one. -/
def wholeDigits? (cs : List Char) : Option (List Nat × List Char) :=
  match digits cs.length cs with
  | ([], _) => none
  | (ds, rest) => if ds.head? = some 0 ∧ 1 < ds.length then none else some (ds, rest)

/-- Take an optional fraction off: a point and at least one digit. -/
def fractionDigits? (cs : List Char) : Option (List Nat × List Char) :=
  if cs.head? = some '.' then
    match digits cs.length cs.tail with
    | ([], _) => none
    | (ds, rest) => some (ds, rest)
  else some ([], cs)

/-- Take an optional exponent off: `e` or `E`, an optional sign and at least one digit. -/
def exponent? (cs : List Char) : Option (Option Int × List Char) :=
  if cs.head? = some 'e' ∨ cs.head? = some 'E' then
    let rest := cs.tail
    let unsigned := if rest.head? = some '+' ∨ rest.head? = some '-' then rest.tail else rest
    match digits unsigned.length unsigned with
    | ([], _) => none
    | (ds, after) =>
      let n : Int := ofDigits ds
      some (some (if rest.head? = some '-' then -n else n), after)
  else some (none, cs)

def numeral? (cs : List Char) : Option (Numeral × List Char) := do
  let negative := cs.head? = some '-'
  let (whole, rest) ← wholeDigits? (if negative then cs.tail else cs)
  let (fraction, rest) ← fractionDigits? rest
  let (exponent, rest) ← exponent? rest
  return (⟨negative, whole, fraction, exponent⟩, rest)

end PolicyBook.Json
