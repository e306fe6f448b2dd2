import FractionDrill.Expr.Postfix

/-!
# Evaluation of texts

A text is evaluated without any knowledge of the expression that produced it:
its tokens are rearranged into a postfix list, the expression is rebuilt from
that list, and the expression is evaluated. The working that is shown with a
value holds the texts of the three stages.
-/
namespace FractionDrill

/-- The three stages of an evaluation as texts. -/
structure Working where
  tokens : Text
  postfixList : Text
  tree : Text
deriving DecidableEq, Repr

namespace Expr

/-- An unreadable number makes the whole expression malformed. -/
def blameExpression : Fault → Fault
  | .malformedNumber text => .malformedExpression (.unreadableNumber text)
  | fault => fault

def evaluate (s : Text) : Except Fault (Fraction × Working) := do
  let tokens ← (Token.ofText s).mapError blameExpression
  let rearranged ← Token.toPostfix tokens
  let e ← ofPostfix rearranged
  let v ← e.value
  return (v, ⟨Token.renderAll tokens, Token.renderAll rearranged, e.render⟩)

/-- The written value of an expression text. -/
def answer (s : Text) : Except Fault Text := do
  let (v, _) ← evaluate s
  return v.render

end Expr
end FractionDrill
