import PolicyBook.Power
/-!
Binary floating-point numbers of sixty-four bits, as exact values.

A number is `± mantissa · 2 ^ exponent` with a mantissa of at most 53 bits; nothing here is computed
with machine floats. `Double.nearest?` is the one place where a value is rounded: to the nearest
number, a half to the even mantissa. Nothing is ever computed with two of them: numerals are read
into them, and they are written out again.
-/
namespace PolicyBook

/-- A finite binary floating-point number. -/
structure Double where
  /-- Whether the sign is minus; zero has a sign too. -/
  negative : Bool
  /-- The binary digits of the number, at most 53. -/
  mantissa : Nat
  /-- The weight of the last binary digit, at least -1074. -/
  exponent : Int
  deriving DecidableEq, Repr

namespace Double

def minExponent : Int := -1074

def maxExponent : Int := 971

def zero (negative : Bool) : Double := ⟨negative, 0, minExponent⟩

def isZero (x : Double) : Bool := x.mantissa == 0

def withSign (negative : Bool) (x : Double) : Double := { x with negative }

/-- The quotient of two numbers as a natural number, a half going to the even one. -/
def roundedQuotient (num den : Nat) : Nat :=
  let quotient := num / den
  let twice := 2 * (num % den)
  if twice < den then quotient
  else if den < twice then quotient + 1
  else quotient + quotient % 2

/-- The number nearest to `num / den`, unless it is too large for one. -/
def nearest? (num den : Nat) : Option Double :=
  if num = 0 then some (zero false)
  else
    -- the quotient lies between two neighbouring powers of two
    let guess : Int := max (num.log2 - den.log2 - 53) minExponent
    let scaledDown (e : Int) : Nat × Nat := (num * twoTo (-e).toNat, den * twoTo e.toNat)
    let exponent :=
      let (n, d) := scaledDown guess
      if twoTo 53 * d ≤ n then guess + 1 else guess
    let (n, d) := scaledDown exponent
    let mantissa := roundedQuotient n d
    let result : Double :=
      if mantissa = twoTo 53 then ⟨false, twoTo 52, exponent + 1⟩ else ⟨false, mantissa, exponent⟩
    if result.exponent ≤ maxExponent then some result else none

end Double

end PolicyBook
