import PolicyBook.Text.Numeral
import PolicyBook.Text.Unprinted
/-!
Quoting a text inside a message.

`quoted s` puts `s` between quotation marks so that it reads unambiguously on one line: the mark and
the backslash get a backslash, tab, line feed, carriage return and NUL their letters, and every
character that would not show as itself becomes its code point in braces.
-/
namespace PolicyBook.Text

def quotedChar (c : Char) : List Char :=
  match c with
  | '"' => ['\\', '"']
  | '\\' => ['\\', '\\']
  | '\n' => ['\\', 'n']
  | '\r' => ['\\', 'r']
  | '\t' => ['\\', 't']
  | '\x00' => ['\\', '0']
  | c => if isUnprinted c then ['\\', 'u', '\x7b'] ++ hexadecimal c.toNat ++ ['\x7d'] else [c]

def quoted (s : String) : String :=
  String.ofList ('"' :: s.toList.flatMap quotedChar ++ ['"'])

end PolicyBook.Text
