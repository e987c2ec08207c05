/-!
Blank characters and trimming.

`isBlank` is the Unicode property White_Space, which is wider than `Char.isWhitespace`. Trimming
removes blanks from both ends and nothing else; `trimmedStart_eq_self_iff` says when the front
already carries none.
-/
namespace PolicyBook.Text

/-- The characters with the Unicode property White_Space. -/
def isBlank (c : Char) : Bool :=
  let n := c.toNat
  (0x9 ≤ n && n ≤ 0xD) || n == 0x20 || n == 0x85 || n == 0xA0 || n == 0x1680 ||
    (0x2000 ≤ n && n ≤ 0x200A) || n == 0x2028 || n == 0x2029 || n == 0x202F || n == 0x205F ||
    n == 0x3000

def trimmedStart (cs : List Char) : List Char :=
  cs.dropWhile isBlank

def trimmedEnd (cs : List Char) : List Char :=
  (cs.reverse.dropWhile isBlank).reverse

def trimmed (cs : List Char) : List Char :=
  trimmedEnd (trimmedStart cs)

def trim (s : String) : String :=
  String.ofList (trimmed s.toList)

theorem trimmedStart_eq_nil_iff {cs : List Char} :
    trimmedStart cs = [] ↔ ∀ c ∈ cs, isBlank c = true := by
  induction cs with
  | nil => simp [trimmedStart]
  | cons c cs ih =>
    by_cases h : isBlank c = true
    · rw [trimmedStart, List.dropWhile_cons_of_pos h, ← trimmedStart, ih]
      simp [h]
    · simp [trimmedStart, h]

theorem trimmedStart_eq_self_iff {cs : List Char} :
    trimmedStart cs = cs ↔ ∀ c ∈ cs.head?, isBlank c = false := by
  cases cs with
  | nil => simp [trimmedStart]
  | cons c cs =>
    by_cases h : isBlank c = true
    · have hlen : (cs.dropWhile isBlank).length ≤ cs.length := (List.dropWhile_suffix _).length_le
      have hne : trimmedStart (c :: cs) ≠ c :: cs := by
        intro heq
        rw [trimmedStart, List.dropWhile_cons_of_pos h] at heq
        rw [heq, List.length_cons] at hlen
        omega
      simp [hne, h]
    · simp [trimmedStart, h]

end PolicyBook.Text
