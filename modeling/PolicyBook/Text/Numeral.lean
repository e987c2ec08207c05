import PolicyBook.Power
/-!
Numerals: decimal and hexadecimal texts of natural numbers.

Printing never writes a superfluous zero (`decimal`), or writes exactly as many digits as asked for
(`padded`, `hexByte`). Reading takes ASCII digits alone: no sign, no separator, no other script.
-/
namespace PolicyBook.Text

def decimal (n : Nat) : List Char :=
  Nat.toDigits 10 n

/-- Put zeros in front until the text has at least `width` characters. -/
def zeroPadded (width : Nat) (cs : List Char) : List Char :=
  List.replicate (width - cs.length) '0' ++ cs

/-- The decimal digits of a number, with zeros in front up to `width` digits. -/
def padded (width n : Nat) : List Char :=
  zeroPadded width (decimal n)

/-- Fill a column of `width` characters, the text standing left. -/
def column (width : Nat) (s : String) : String :=
  s ++ String.ofList (List.replicate (width - s.length) ' ')

def digit? (c : Char) : Option Nat :=
  if '0' ≤ c ∧ c ≤ '9' then some (c.toNat - '0'.toNat) else none

/-- The value of an ASCII hexadecimal digit, in either case. -/
def hexDigit? (c : Char) : Option (Fin 16) :=
  if '0' ≤ c ∧ c ≤ '9' then some (Fin.ofNat 16 (c.toNat - '0'.toNat))
  else if 'a' ≤ c ∧ c ≤ 'f' then some (Fin.ofNat 16 (c.toNat - 'a'.toNat + 10))
  else if 'A' ≤ c ∧ c ≤ 'F' then some (Fin.ofNat 16 (c.toNat - 'A'.toNat + 10))
  else none

def hexDigit (d : Fin 16) : Char :=
  if d.val < 10 then Char.ofNat ('0'.toNat + d.val) else Char.ofNat ('a'.toNat + (d.val - 10))

def hexByte (b : UInt8) : List Char :=
  [hexDigit (Fin.ofNat 16 (b.toNat / 16)), hexDigit (Fin.ofNat 16 (b.toNat % 16))]

def hexadecimal (n : Nat) : List Char :=
  Nat.toDigits 16 n

/-- The number that digits, most significant first, denote in base ten. -/
def ofDigits (ds : List Nat) : Nat :=
  ds.foldl (fun n d => 10 * n + d) 0

def natural? (cs : List Char) : Option Nat :=
  if cs.isEmpty then none else (cs.mapM digit?).map ofDigits

/-- The largest number of sixty-four bits. -/
def maxWord : Nat := twoTo 64 - 1

/-- Read a number of at most sixty-four bits: an optional `+`, then digits. -/
def word? (cs : List Char) : Option Nat :=
  let digits := if cs.head? = some '+' then cs.tail else cs
  (natural? digits).filter (· ≤ maxWord)

theorem hexDigit?_hexDigit (d : Fin 16) : hexDigit? (hexDigit d) = some d := by
  revert d
  decide

end PolicyBook.Text
