import FractionDrill.Proofs.Expr.Acceptance
import FractionDrill.Proofs.Expr.Rendering

/-!
# Written expressions read back

The text of an expression is derived by the expression itself, with one group for
every operator, so scanning, rearranging and rebuilding give the expression back
node for node, and its text has its value or its fault.
-/
namespace FractionDrill
open Text

mutual

/-- Numbers that were written are read back as themselves. -/
theorem Operand.readNumbers_write : ∀ operand : Operand Fraction,
    operand.write.readNumbers = .ok operand
  | .number q => by
      rw [Operand.write, Operand.readNumbers, Operand.mapM, Fraction.text_literal,
        Fraction.read_render]
      rfl
  | .group chain => by
      have hchain := chain.readNumbers_write
      rw [Chain.readNumbers] at hchain
      rw [Operand.write, Operand.readNumbers, Operand.mapM, hchain]
      rfl

theorem Chain.readNumbers_write : ∀ chain : Chain Fraction,
    chain.write.readNumbers = .ok chain
  | .single operand => by
      have hoperand := operand.readNumbers_write
      rw [Operand.readNumbers] at hoperand
      rw [Chain.write, Chain.readNumbers, Chain.mapM, hoperand]
      rfl
  | .join left op right => by
      have hleft := left.readNumbers_write
      have hright := right.readNumbers_write
      rw [Chain.readNumbers] at hleft
      rw [Operand.readNumbers] at hright
      rw [Chain.write, Chain.readNumbers, Chain.mapM, hleft, hright]
      rfl

end

namespace Expr

/-- The expression as an operand, with a group for every operator. -/
def operand : Expr → Operand Fraction
  | number q => .number q
  | binary op left right => .group (.join (.single left.operand) op right.operand)

/-- The tokens of a written expression. -/
def tokens (e : Expr) : List Token := e.operand.tokens

theorem expr_operand (e : Expr) : e.operand.expr = e := by
  induction e with
  | number q => rfl
  | binary op left right ihl ihr =>
    rw [operand, Operand.expr, Chain.expr, Chain.expr, ihl, ihr]

theorem filter_render (e : Expr) :
    (e.render.filter fun c => !isBlank c) = e.operand.write.text := by
  induction e with
  | number q =>
    have hink : ∀ c ∈ q.render, (!isBlank c) = true := fun c hc => by
      simp [(isInk_of_mem_fraction hc).1]
    rw [render, List.filter_eq_self.mpr hink, operand, Operand.write, Operand.text,
      Fraction.text_literal]
  | binary op left right ihl ihr =>
    have hop : isBlank op.symbol = false := (isInk_symbol op).1
    have hspace : isBlank ' ' = true := rfl
    have hopening : isBlank '(' = false := rfl
    have hclosing : isBlank ')' = false := rfl
    simp [render, List.filter_append, hop, hspace, hopening, hclosing, ihl, ihr, operand,
      Operand.write, Chain.write, Operand.text, Chain.text]

theorem derives_render (e : Expr) : (Chain.single e.operand.write).Derives e.render :=
  (filter_render e).symm

theorem ofText_render (e : Expr) : Token.ofText e.render = .ok e.tokens := by
  rw [ofText_of_derives (derives_render e)]
  have hread : (Chain.single e.operand.write).readNumbers = .ok (.single e.operand) :=
    (Chain.single e.operand).readNumbers_write
  rw [hread]
  rfl

theorem toPostfix_tokens (e : Expr) : Token.toPostfix e.tokens = .ok e.postfixTokens := by
  have h := Token.toPostfix_chain (.single e.operand)
  rwa [Chain.expr, expr_operand] at h

/-- The three stages of the evaluation of a written expression. -/
def working (e : Expr) : Working :=
  ⟨Token.renderAll e.tokens, Token.renderAll e.postfixTokens, e.render⟩

theorem evaluate_render_eq (e : Expr) :
    evaluate e.render = e.value.map fun v => (v, e.working) := by
  have hworking : workingOf (.single e.operand) = e.working := by
    rw [workingOf, Chain.expr, expr_operand]
    rfl
  have hvalue : (Chain.single e.operand).value = e.value := by
    rw [← Chain.value_expr, Chain.expr, expr_operand]
  have htokens : Token.ofText e.render = .ok (Chain.single e.operand).tokens := ofText_render e
  rw [evaluate_of_tokens htokens, hvalue, hworking]

/-- The sign of a number is told from the operator before it. -/
example : answer "(2 - -1'1/2)".toList = .ok "3'1/2".toList := by decide +kernel

end Expr
end FractionDrill
