import PolicyBook.Double
import PolicyBook.Text.Numeral
/-!
The shortest decimal text of a floating-point number.

Of all decimals that read back as the number, `Double.text` writes one with the fewest digits, and
of those the nearest; a tie goes up. The text is always positional: no exponent, no point behind a
whole number, a minus also in front of zero.
-/
namespace PolicyBook.Double

/-- The multiple of `10 ^ p` that reads back as the number and is nearest to it, if there is one.
It is answered as a multiple of `10 ^ p`. -/
def multipleOfPower? (x : Double) (p : Int) : Option Nat :=
  let m := x.mantissa
  -- both sides of every comparison are multiples of a quarter of the last binary digit
  let a := tenTo p.toNat * twoTo (2 - x.exponent).toNat
  let b := tenTo (-p).toNat * twoTo (x.exponent - 2).toNat
  -- below a power of two the neighbours lie half as far apart
  let low := if m = twoTo 52 ∧ minExponent < x.exponent then 4 * m - 1 else 4 * m - 2
  let high := 4 * m + 2
  let readsBack (c : Nat) : Bool :=
    if m % 2 = 0 then low * b ≤ c * a && c * a ≤ high * b else low * b < c * a && c * a < high * b
  let below := 4 * m * b / a
  let above := below + 1
  if readsBack below && (!readsBack above || 2 * (4 * m * b - below * a) < a) then some below
  else if readsBack above then some above
  else none

/-- The first hit among the powers of ten from `10 ^ (n - 345)` downwards. -/
def shortestFrom (x : Double) : Nat → Nat × Int
  | 0 => (0, 0)
  | n + 1 =>
    let p : Int := n - 344
    match multipleOfPower? x p with
    | some c => (c, p)
    | none => shortestFrom x n

/-- The digits of a multiple of `10 ^ p`, positionally. -/
def positional (c : Nat) (p : Int) : List Char :=
  let digits := Text.decimal c
  if 0 ≤ p then digits ++ List.replicate p.toNat '0'
  else
    let places := p.natAbs
    let filled := Text.zeroPadded (places + 1) digits
    filled.take (filled.length - places) ++ '.' :: filled.drop (filled.length - places)

/-- The shortest text that reads back as the number. -/
def text (x : Double) : String :=
  let (c, p) := if x.isZero then (0, 0) else shortestFrom x 660
  String.ofList ((if x.negative then ['-'] else []) ++ positional c p)

end PolicyBook.Double
