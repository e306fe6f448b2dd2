import FractionDrill.Text.Basic

/-!
# Blank characters

The blanks are the characters with the Unicode property `White_Space`. Line
feeds and carriage returns are among them; the byte order mark and the zero
width space are not.
-/
namespace FractionDrill.Text

def isBlank (c : Char) : Bool :=
  (0x9 ≤ c.toNat && c.toNat ≤ 0xd) || (0x2000 ≤ c.toNat && c.toNat ≤ 0x200a) ||
    [0x20, 0x85, 0xa0, 0x1680, 0x2028, 0x2029, 0x202f, 0x205f, 0x3000].contains c.toNat

def trimStart (s : Text) : Text := s.dropWhile isBlank

def trimEnd (s : Text) : Text := (s.reverse.dropWhile isBlank).reverse

def trim (s : Text) : Text := trimEnd (trimStart s)

end FractionDrill.Text
