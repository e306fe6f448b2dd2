import FractionDrill.Expr.Token

/-!
# Postfix lists

In a postfix list every operator stands after its two operands, so no
parentheses are needed. All four operators have equal precedence: a chain such
as `a + b × c` is read strictly from left to right, after the groups in it.

A token list is rearranged by one pass over two stacks. The pass also checks
that operands and operators alternate, so nothing is guessed from a malformed
chain.
-/
namespace FractionDrill

/-- The postfix list of an expression. -/
def Expr.postfixTokens : Expr → List Token
  | .number q => [.number q]
  | .binary op left right => left.postfixTokens ++ right.postfixTokens ++ [.operator op]

namespace Arrangement

/-- What waits for the end of its group: an operator, or the start of the group. -/
inductive Waiting where
  | operator (op : Operator)
  | opening
deriving DecidableEq

/-- The state of the pass; `done` is the output with the last token first. -/
structure State where
  done : List Token := []
  waiting : List Waiting := []
  afterValue : Bool := false

/-- Moves the operators on top of the waiting stack to the output. -/
def release (done : List Token) : List Waiting → List Token × List Waiting
  | .operator op :: rest => release (.operator op :: done) rest
  | waiting => (done, waiting)

def refuse (flaw : Flaw) : Except Fault State := .error (.malformedExpression flaw)

def step (s : State) : Token → Except Fault State
  | .number q =>
      if s.afterValue then refuse .numberAfterValue
      else .ok ⟨.number q :: s.done, s.waiting, true⟩
  | .opening =>
      if s.afterValue then refuse .groupAfterValue
      else .ok ⟨s.done, .opening :: s.waiting, false⟩
  | .closing =>
      if !s.afterValue then refuse .missingBeforeClosing
      else
        match release s.done s.waiting with
        | (done, .opening :: waiting) => .ok ⟨done, waiting, true⟩
        | _ => refuse .unmatchedClosing
  | .operator op =>
      if !s.afterValue then refuse .missingLeftOperand
      else
        let (done, waiting) := release s.done s.waiting
        .ok ⟨done, .operator op :: waiting, false⟩

/-- The output of a pass that has read every token. -/
def finish (s : State) : Except Fault (List Token) :=
  if !s.afterValue then .error (.malformedExpression .missingLastOperand)
  else
    match release s.done s.waiting with
    | (done, []) => .ok done.reverse
    | _ => .error (.malformedExpression .unclosedGroup)

end Arrangement

/-- Rearranges a chain of operands and operators into a postfix list. -/
def Token.toPostfix : List Token → Except Fault (List Token)
  | [] => .error (.malformedExpression .empty)
  | tokens => do Arrangement.finish (← tokens.foldlM Arrangement.step {})

namespace Expr

/-- Applies one token of a postfix list to the stack of expressions, the last one first. -/
def build (stack : List Expr) : Token → Except Fault (List Expr)
  | .number q => .ok (.number q :: stack)
  | .operator op =>
      match stack with
      | right :: left :: rest => .ok (.binary op left right :: rest)
      | _ => .error (.malformedExpression .missingOperand)
  | .opening => .error (.malformedExpression .parenthesisInPostfix)
  | .closing => .error (.malformedExpression .parenthesisInPostfix)

/-- The expression whose postfix list is given. -/
def ofPostfix (tokens : List Token) : Except Fault Expr := do
  match ← tokens.foldlM build [] with
  | [e] => .ok e
  | _ => .error (.malformedExpression .notOneExpression)

end Expr
end FractionDrill
