import FractionDrill.Exercise.Problem
import FractionDrill.Random.Draw

/-!
# Random exercises

An exercise is a random expression with at most a given number of operators. A
budget of operators is spent from the root downwards: one here, and the rest
divided between the two operands. Three rules keep the values within what
pupils know: the larger operand of a difference stands on the left, a divisor is
not zero, and a quotient is below one.

An attempt that breaks a rule, or that overflows, is repeated at the same level
with fresh draws. After too many of them one attempt is made without division,
so the search always ends.
-/
namespace FractionDrill

/-- The operators of an exercise, where nothing else is asked for. -/
def defaultMaxOperators : Nat := 3

/-- The attempts at each level before division is given up, where nothing else is asked for. -/
def defaultAttempts : Nat := 64

/-- The limits within which exercises are drawn. -/
structure Rules where
  /-- Whole numbers are below the bound, and denominators at most the bound. -/
  bound : Nat
  two_le_bound : 2 ≤ bound
  maxOperators : Nat := defaultMaxOperators
  attempts : Nat := defaultAttempts

namespace Rules

def ofBound (bound : Int) : Except Fault Rules :=
  if h : 2 ≤ bound.toNat then .ok { bound := bound.toNat, two_le_bound := h }
  else .error (.boundTooSmall bound)

end Rules

/-- An expression together with its value. -/
structure Valued where
  expr : Expr
  value : Fraction
deriving DecidableEq

namespace Valued

def number (q : Fraction) : Valued := ⟨.number q, q⟩

/-- Applies an operator to two operands as they stand, and gives nothing where that fails or
leaves a quotient that is not below one. -/
def join (op : Operator) (a b : Valued) : Option Valued :=
  match op.apply a.value b.value with
  | .error _ => none
  | .ok v => if op = .divide ∧ Fraction.one ≤ v then none else some ⟨.binary op a.expr b.expr, v⟩

/-- Joins two operands, those of a difference in descending order. -/
def combine (op : Operator) (left right : Valued) : Option Valued :=
  if op = .minus ∧ left.value < right.value then join op right left else join op left right

def problem (v : Valued) : Problem := Problem.ofExpr v.expr v.value

end Valued

namespace Rules

variable {σ : Type} [WordSource σ]

/-- The probability 3/10 of a single number where operators are left, out of `2 ^ 64`. -/
def leafThreshold : UInt64 := 5534023222112865280

/-- The probability 1/2 of a whole number, out of `2 ^ 64`. -/
def wholeThreshold : UInt64 := 9223372036854775808

/-- A whole number below the bound, or a proper fraction. -/
def leaf (rules : Rules) : Draw σ Valued := do
  have two_le := rules.two_le_bound
  if ← Draw.chance wholeThreshold then
    let n ← Draw.between 1 (rules.bound - 1) (by omega)
    return .number (← Draw.ofExcept (Fraction.ofInt n.val))
  else
    let n ← Draw.between 1 (rules.bound - 1) (by omega)
    let d ← Draw.between (n.val + 1) rules.bound (by omega)
    return .number (← Draw.ofExcept (Fraction.ofParts n.val d.val))

def choose (table : List Operator) (h : 0 < table.length) : Draw σ Operator := do
  return table.get (← Draw.below table.length h)

/-- One attempt within a budget of operators; `operand` draws within a smaller one. -/
def attempt (rules : Rules) (table : List Operator) (h : 0 < table.length) (budget : Nat)
    (operand : (k : Nat) → k < budget → Draw σ Valued) : Draw σ (Option Valued) := do
  if hb : budget = 0 then
    return some (← rules.leaf)
  else if ← Draw.chance leafThreshold then
    return some (← rules.leaf)
  else
    let k ← Draw.below budget (by omega)
    let left ← operand k.val k.isLt
    let right ← operand (budget - 1 - k.val) (by omega)
    let op ← choose table h
    return Valued.combine op left right

/-- The first success in a number of attempts. -/
def firstSuccess {α : Type} (d : Draw σ (Option α)) : Nat → Draw σ (Option α)
  | 0 => return none
  | n + 1 => do
      match ← d with
      | some a => return some a
      | none => firstSuccess d n

/-- A random expression with at most `budget` operators. -/
def expression (rules : Rules) (budget : Nat) : Draw σ Valued := do
  let free ← firstSuccess
    (rules.attempt Operator.all (by decide) budget fun k _ => rules.expression k) rules.attempts
  match free with
  | some v => return v
  | none =>
      let undivided ← rules.attempt Operator.withoutDivision (by decide) budget
        fun k _ => rules.expression k
      match undivided with
      | some v => return v
      | none => throw .overflow
termination_by budget

/-- A random exercise. -/
def exercise (rules : Rules) : Draw σ Valued := rules.expression rules.maxOperators

def problem (rules : Rules) : Draw σ Problem := do return (← rules.exercise).problem

end Rules
end FractionDrill
