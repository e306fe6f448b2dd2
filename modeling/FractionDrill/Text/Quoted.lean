import FractionDrill.Text.Unprintable
import FractionDrill.Text.Extending

/-!
# Quoted texts

A text is quoted between double quotes so that every character can be told
apart on a terminal. Double quotes and backslashes get a backslash, the four
characters NUL, TAB, LF and CR have a letter or digit of their own, and other
characters that cannot be seen alone are written by their code point.
-/
namespace FractionDrill.Text

/-- A character by its code point, as `\u` and lower-case hexadecimal digits in braces. -/
def codePoint (c : Char) : Text := ['\\', 'u', '\x7b'] ++ Nat.toDigits 16 c.toNat ++ ['\x7d']

def quoteChar (c : Char) : Text :=
  match c with
  | '\x00' => ['\\', '0']
  | '\t' => ['\\', 't']
  | '\n' => ['\\', 'n']
  | '\r' => ['\\', 'r']
  | '"' => ['\\', '"']
  | '\\' => ['\\', '\\']
  | c => if isUnprintable c || isExtending c then codePoint c else [c]

def quoted (s : Text) : Text := '"' :: s.flatMap quoteChar ++ ['"']

end FractionDrill.Text
