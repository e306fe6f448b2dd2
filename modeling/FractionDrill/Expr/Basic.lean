import FractionDrill.Fraction.Written

/-!
# Expressions

An expression is a number or one of the four operations on two expressions. It
is written with one pair of parentheses and two spaces for every operator, so
its text needs no precedence. Its value is computed with checked arithmetic,
the left operand first.
-/
namespace FractionDrill

inductive Operator where
  | plus
  | minus
  | times
  | divide
deriving DecidableEq, Repr

namespace Operator

def all : List Operator := [plus, minus, times, divide]

def withoutDivision : List Operator := [plus, minus, times]

def symbol : Operator → Char
  | plus => '+'
  | minus => '-'
  | times => '×'
  | divide => '÷'

def ofSymbol? : Char → Option Operator
  | '+' => some plus
  | '-' => some minus
  | '×' => some times
  | '÷' => some divide
  | _ => none

def apply : Operator → Fraction → Fraction → Except Fault Fraction
  | plus => Fraction.add
  | minus => Fraction.sub
  | times => Fraction.mul
  | divide => Fraction.div

theorem symbol_of_ofSymbol? {c : Char} {op : Operator} (h : ofSymbol? c = some op) :
    c = op.symbol := by
  unfold ofSymbol? at h
  split at h <;> cases h <;> rfl

end Operator

inductive Expr where
  | number (value : Fraction)
  | binary (op : Operator) (left right : Expr)
deriving DecidableEq

namespace Expr

def value : Expr → Except Fault Fraction
  | number q => .ok q
  | binary op left right => do
      let a ← left.value
      let b ← right.value
      op.apply a b

def operatorCount : Expr → Nat
  | number _ => 0
  | binary _ left right => 1 + left.operatorCount + right.operatorCount

/-- Every operation with its two operands, an operation before those in its operands. -/
def operations : Expr → List (Operator × Expr × Expr)
  | number _ => []
  | binary op left right => (op, left, right) :: left.operations ++ right.operations

def render : Expr → Text
  | number q => q.render
  | binary op left right =>
      '(' :: left.render ++ ' ' :: op.symbol :: ' ' :: right.render ++ [')']

theorem length_operations (e : Expr) : e.operations.length = e.operatorCount := by
  induction e with
  | number => rfl
  | binary op left right ihl ihr =>
    simp only [operations, operatorCount, List.cons_append, List.length_cons, List.length_append,
      ihl, ihr]
    omega

end Expr
end FractionDrill
