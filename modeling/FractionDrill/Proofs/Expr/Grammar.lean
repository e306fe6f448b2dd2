import FractionDrill.Expr.Postfix
import FractionDrill.Proofs.Fraction.Literal

/-!
# The grammar of expressions

A chain is an operand followed by any number of operators with an operand each,
and an operand is a number or a chain in parentheses. All operators of a chain
have equal precedence and associate to the left, so the last one is outermost.

The numbers of a derivation are literals where it derives a text without blanks,
and fractions where it derives a list of tokens.
-/
namespace FractionDrill
open Text

mutual

inductive Operand (α : Type) where
  | number (n : α)
  | group (chain : Chain α)

inductive Chain (α : Type) where
  | single (operand : Operand α)
  | join (left : Chain α) (op : Operator) (right : Operand α)

end

variable {α β : Type}

mutual

/-- The text that is derived; it has no blanks. -/
def Operand.text : Operand Literal → Text
  | .number l => l.text
  | .group chain => '(' :: (chain.text ++ [')'])

@[inherit_doc Operand.text]
def Chain.text : Chain Literal → Text
  | .single operand => operand.text
  | .join left op right => left.text ++ op.symbol :: right.text

end

mutual

/-- The list of tokens that is derived. -/
def Operand.tokens : Operand Fraction → List Token
  | .number q => [.number q]
  | .group chain => .opening :: (chain.tokens ++ [.closing])

@[inherit_doc Operand.tokens]
def Chain.tokens : Chain Fraction → List Token
  | .single operand => operand.tokens
  | .join left op right => left.tokens ++ .operator op :: right.tokens

end

mutual

/-- The value by checked arithmetic, from left to right. -/
def Operand.value : Operand Fraction → Except Fault Fraction
  | .number q => .ok q
  | .group chain => chain.value

@[inherit_doc Operand.value]
def Chain.value : Chain Fraction → Except Fault Fraction
  | .single operand => operand.value
  | .join left op right => do
      let a ← left.value
      let b ← right.value
      op.apply a b

end

mutual

/-- Reads every number, and fails where one of them cannot be read. -/
def Operand.mapM (f : α → Except Fault β) : Operand α → Except Fault (Operand β)
  | .number n => do return .number (← f n)
  | .group chain => do return .group (← chain.mapM f)

@[inherit_doc Operand.mapM]
def Chain.mapM (f : α → Except Fault β) : Chain α → Except Fault (Chain β)
  | .single operand => do return .single (← operand.mapM f)
  | .join left op right => do
      let left ← left.mapM f
      let right ← right.mapM f
      return .join left op right

end

/-- Reads the numbers of a derivation. -/
def Chain.readNumbers (chain : Chain Literal) : Except Fault (Chain Fraction) :=
  chain.mapM fun l => Fraction.read l.text

def Operand.readNumbers (operand : Operand Literal) : Except Fault (Operand Fraction) :=
  operand.mapM fun l => Fraction.read l.text

mutual

/-- The expression that a derivation stands for; parentheses leave no trace in it. -/
def Operand.expr : Operand Fraction → Expr
  | .number q => .number q
  | .group chain => chain.expr

@[inherit_doc Operand.expr]
def Chain.expr : Chain Fraction → Expr
  | .single operand => operand.expr
  | .join left op right => .binary op left.expr right.expr

end

mutual

/-- Writes every number as its literal. -/
def Operand.write : Operand Fraction → Operand Literal
  | .number q => .number q.literal
  | .group chain => .group chain.write

@[inherit_doc Operand.write]
def Chain.write : Chain Fraction → Chain Literal
  | .single operand => .single operand.write
  | .join left op right => .join left.write op right.write

end

def Chain.last : Chain α → Operand α
  | .single operand => operand
  | .join _ _ right => right

theorem Chain.tokens_ne_nil (chain : Chain Fraction) : chain.tokens ≠ [] := by
  cases chain with
  | single operand => cases operand <;> simp [Chain.tokens, Operand.tokens]
  | join left op right => simp [Chain.tokens]

mutual

theorem Operand.value_expr : ∀ operand : Operand Fraction, operand.expr.value = operand.value
  | .number _ => rfl
  | .group chain => by
      rw [Operand.expr, Operand.value]
      exact chain.value_expr

theorem Chain.value_expr : ∀ chain : Chain Fraction, chain.expr.value = chain.value
  | .single operand => by
      rw [Chain.expr, Chain.value]
      exact operand.value_expr
  | .join left op right => by
      rw [Chain.expr, Chain.value, Expr.value, left.value_expr, right.value_expr]

end

/-- A chain derives every text that is its own text, blanks apart. -/
def Chain.Derives (chain : Chain Literal) (s : Text) : Prop :=
  chain.text = s.filter fun c => !isBlank c

def Derivable (s : Text) : Prop := ∃ chain : Chain Literal, chain.Derives s

end FractionDrill
