import FractionDrill.Text.Basic

/-!
# Decimal numerals

A numeral is a nonempty text of the digits `0` to `9`; leading zeros are
allowed when it is read and never written. Signed numerals are written with a
minus sign below zero and with no plus sign.
-/
namespace FractionDrill.Text

def isNumeral (s : Text) : Bool := !s.isEmpty && s.all Char.isDigit

/-- The number a numeral stands for. -/
def numeralValue (s : Text) : Nat := Nat.ofDigitChars 10 s 0

def natural (n : Nat) : Text := Nat.toDigits 10 n

def integer : Int → Text
  | .ofNat n => natural n
  | .negSucc n => '-' :: natural (n + 1)

/-- Reads a numeral, with one optional plus sign, that is at most `most`. -/
def natural? (most : Nat) (s : Text) : Option Nat :=
  let digits := dropMark '+' s
  if isNumeral digits && numeralValue digits ≤ most then some (numeralValue digits) else none

/-- Reads a numeral with an optional sign whose value lies in `[-most - 1, most]`. -/
def integer? (most : Nat) : Text → Option Int
  | '-' :: digits =>
      if isNumeral digits && numeralValue digits ≤ most + 1 then some (-(numeralValue digits : Int))
      else none
  | s => (natural? most s).map Int.ofNat

theorem numeralValue_natural (n : Nat) : numeralValue (natural n) = n :=
  Nat.ofDigitChars_toDigits (by decide) (by decide)

theorem isNumeral_natural (n : Nat) : isNumeral (natural n) = true := by
  have hne : natural n ≠ [] := Nat.toDigits_ne_nil
  have hall : ∀ c ∈ natural n, c.isDigit = true :=
    fun c hc => Nat.isDigit_of_mem_toDigits (by decide) (by decide) hc
  simp [isNumeral, hne, List.all_eq_true.mpr hall]

end FractionDrill.Text
