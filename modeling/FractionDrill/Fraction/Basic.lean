import FractionDrill.Fault

/-!
# Fractions in machine range

A fraction is a rational number whose numerator, without its sign, and whose
denominator are at most `2 ^ 63 - 1`. The rational number is kept in lowest
terms with a positive denominator, so equal fractions have equal parts.
Comparison is by cross products, which are never too large.
-/
namespace FractionDrill

/-- The largest numerator and the largest denominator. -/
def maxPart : Nat := 0x7fffffffffffffff

structure Fraction where
  value : Rat
  num_le : value.num.natAbs ≤ maxPart
  den_le : value.den ≤ maxPart
deriving DecidableEq

namespace Fraction

def num (a : Fraction) : Int := a.value.num

def den (a : Fraction) : Nat := a.value.den

def isZero (a : Fraction) : Bool := a.num == 0

/-- The rational number as a fraction, where its parts fit. -/
def ofRat (q : Rat) : Except Fault Fraction :=
  if h : q.num.natAbs ≤ maxPart ∧ q.den ≤ maxPart then .ok ⟨q, h.1, h.2⟩
  else .error .overflow

/-- The quotient of two integers, which must fit before it is reduced. A zero
denominator is reported before a part that does not fit. -/
def ofParts (n d : Int) : Except Fault Fraction :=
  if d = 0 then .error .divisionByZero
  else if maxPart < n.natAbs ∨ maxPart < d.natAbs then .error .overflow
  else ofRat (Rat.divInt n d)

def ofInt (n : Int) : Except Fault Fraction := ofParts n 1

def zero : Fraction := ⟨0, by decide, by decide⟩

def one : Fraction := ⟨1, by decide, by decide⟩

instance : Inhabited Fraction := ⟨zero⟩

def compare (a b : Fraction) : Ordering := Ord.compare (a.num * b.den) (b.num * a.den)

instance : Ord Fraction := ⟨compare⟩

instance : LT Fraction := ⟨fun a b => a.num * b.den < b.num * a.den⟩

instance : LE Fraction := ⟨fun a b => a.num * b.den ≤ b.num * a.den⟩

instance (a b : Fraction) : Decidable (a < b) :=
  inferInstanceAs (Decidable (a.num * b.den < b.num * a.den))

instance (a b : Fraction) : Decidable (a ≤ b) :=
  inferInstanceAs (Decidable (a.num * b.den ≤ b.num * a.den))

theorem ext_value {a b : Fraction} (h : a.value = b.value) : a = b := by
  cases a
  cases b
  cases h
  rfl

theorem den_pos (a : Fraction) : 0 < a.den := a.value.den_pos

theorem isZero_iff_value {a : Fraction} : a.isZero = true ↔ a.value = 0 := by
  unfold isZero num
  rw [beq_iff_eq, Rat.num_eq_zero]

theorem le_iff_value {a b : Fraction} : a ≤ b ↔ a.value ≤ b.value :=
  (Rat.le_iff a.value b.value).symm

theorem lt_iff_value {a b : Fraction} : a < b ↔ a.value < b.value :=
  (Rat.lt_iff a.value b.value).symm

theorem ofRat_value (a : Fraction) : ofRat a.value = .ok a := by
  simp only [ofRat, a.num_le, a.den_le, and_self, dif_pos]

theorem value_of_ofRat {q : Rat} {a : Fraction} (h : ofRat q = .ok a) : a.value = q := by
  unfold ofRat at h
  split at h
  · cases h
    rfl
  · cases h

end Fraction
end FractionDrill
