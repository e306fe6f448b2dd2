import FractionDrill.Fraction.Basic

/-!
# Checked arithmetic

Sums and differences are taken over the least common multiple of the
denominators. That multiple, the two numerators over it and their sum must each
be a machine word, also where the reduced result would be small enough.
Products cancel crosswise before they multiply, and a quotient is the product
with the reciprocal; both parts must be words, in a quotient also after the sign
of the lower one has moved above. Every result is then reduced, and the least
word is refused in it.
-/
namespace FractionDrill

/-- Two integers in the place of a fraction. -/
structure Parts where
  num : Int
  den : Int
deriving DecidableEq, Repr

/-- The only word whose opposite is no word. -/
def leastWord : Int := -0x8000000000000000

namespace Fraction

/-- The integers of 64 bits with a sign. -/
def IsWord (z : Int) : Prop := -0x8000000000000000 ≤ z ∧ z ≤ 0x7fffffffffffffff

instance (z : Int) : Decidable (IsWord z) := inferInstanceAs (Decidable (_ ∧ _))

def parts (a : Fraction) : Parts := ⟨a.num, a.den⟩

end Fraction

namespace Parts

/-- Refuses what is no word. -/
def word (z : Int) : Except Fault Int :=
  if Fraction.IsWord z then .ok z else .error .overflow

/-- Divides both integers by their greatest common divisor and moves the sign above. -/
def lowest (n d : Int) : Parts :=
  if d < 0 then ⟨-(n / n.gcd d), -(d / n.gcd d)⟩ else ⟨n / n.gcd d, d / n.gcd d⟩

/-- Refuses parts of which one is no word. -/
def inWords (p : Parts) : Except Fault Parts := do
  return ⟨← word p.num, ← word p.den⟩

/-- The parts of a product: each upper part loses what it has in common with the lower part of
the other operand before the two are multiplied. -/
def crossProduct (p q : Parts) : Parts where
  num := p.num / p.num.gcd q.den * (q.num / p.den.gcd q.num)
  den := p.den / p.den.gcd q.num * (q.den / p.num.gcd q.den)

def product (p q : Parts) : Except Fault Parts := (p.crossProduct q).inWords

/-- The quotient, whose lower part may be negative. Equal lower parts cancel, and so do equal
upper parts; otherwise it is the product with the reciprocal. -/
def quotient (p q : Parts) : Except Fault Parts :=
  if p.den = q.den then .ok ⟨p.num, q.num⟩
  else if p.num = q.num then .ok ⟨q.den, p.den⟩
  else p.product ⟨q.den, q.num⟩

end Parts

namespace Fraction

/-- The fraction with these parts in lowest terms. Both must be words after the sign is moved,
and neither may be the least word. -/
def ofReduced (p : Parts) : Except Fault Fraction := do
  let low ← (Parts.lowest p.num p.den).inWords
  if low.num = leastWord ∨ low.den = leastWord then .error .overflow
  -- what is left fits, so nothing more is refused here
  else ofRat (Rat.divInt low.num low.den)

/-- The least common multiple of the two denominators. -/
def commonDen (a b : Fraction) : Nat := a.den.lcm b.den

/-- The numerator of `a` over the common denominator of `a` and `b`. -/
def scaledNum (a b : Fraction) : Int := (commonDen a b / a.den : Nat) * a.num

/-- Joins the two numerators over the common denominator. -/
def joinNums (join : Int → Int → Int) (a b : Fraction) : Except Fault Fraction :=
  let x := scaledNum a b
  let y := scaledNum b a
  let z := join x y
  if IsWord (commonDen a b) ∧ IsWord x ∧ IsWord y ∧ IsWord z then
    ofReduced ⟨z, commonDen a b⟩
  else .error .overflow

def add (a b : Fraction) : Except Fault Fraction := joinNums (· + ·) a b

def sub (a b : Fraction) : Except Fault Fraction := joinNums (· - ·) a b

def mul (a b : Fraction) : Except Fault Fraction := do
  ofReduced (← a.parts.product b.parts)

def div (a b : Fraction) : Except Fault Fraction :=
  if b.isZero then .error .divisionByZero
  else do ofReduced (← a.parts.quotient b.parts)

/-- The opposite of a fraction always fits, because the range is symmetric. -/
def neg (a : Fraction) : Fraction :=
  ⟨-a.value, by simpa using a.num_le, by simpa using a.den_le⟩

end Fraction
end FractionDrill
