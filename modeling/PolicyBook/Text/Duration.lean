import PolicyBook.Text.Numeral
/-!
Spans of time in words of one unit.

A span below a second is written in milliseconds, any other in seconds with as many places as it
takes, and no time at all as nothing of the smallest unit.
-/
namespace PolicyBook.Text

/-- The digits behind the point of a number of thousandths, without zeros at the end. -/
def thousandths (n : Nat) : List Char :=
  ((padded 3 n).reverse.dropWhile (· = '0')).reverse

def duration (millis : Nat) : String :=
  if millis = 0 then "0ns"
  else if millis < 1000 then String.ofList (decimal millis) ++ "ms"
  else
    let places := thousandths (millis % 1000)
    let fraction := if places.isEmpty then [] else '.' :: places
    String.ofList (decimal (millis / 1000) ++ fraction) ++ "s"

example : duration 1500 = "1.5s" := by decide
example : duration 60000 = "60s" := by decide
example : duration 250 = "250ms" := by decide

end PolicyBook.Text
