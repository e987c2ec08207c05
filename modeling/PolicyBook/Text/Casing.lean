/-!
Names that are read without regard to ASCII case.

Only the letters `a` to `z` have a case here: `é` and `É` stay apart, and so do `ı` and `I`.
-/
namespace PolicyBook.Text

/-- Whether two texts agree up to the case of ASCII letters. -/
def sameLetters (s t : String) : Bool :=
  s.toList.map Char.toUpper == t.toList.map Char.toUpper

end PolicyBook.Text
