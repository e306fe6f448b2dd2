import FractionDrill.Proofs.Expr.RoundTrip

/-!
# Statements of problems

A statement is a written expression, which has no equals sign of its own, and an
equals sign between spaces. So what stands before the first equals sign is the
expression as it was written, and evaluating it gives the answer of the problem.
-/
namespace FractionDrill.Problem
open Text

theorem equals_not_mem_render (e : Expr) : '=' ∉ e.render := by
  intro hmem
  rcases isInk_of_mem_expr hmem with h | h
  · cases h
  · exact h.2 rfl

/-- The question of a problem is its expression as it was written. -/
theorem question_ofExpr (e : Expr) (v : Fraction) :
    question (ofExpr e v).statement = e.render := by
  have hmem : '=' ∉ e.render ++ [' '] := by
    simp [equals_not_mem_render]
  have hcut : cut '=' (ofExpr e v).statement = some (e.render ++ [' '], [' ']) := by
    have hsplit : (ofExpr e v).statement = (e.render ++ [' ']) ++ '=' :: [' '] := by
      simp [ofExpr]
    rw [hsplit, cut_append hmem]
  rw [question, hcut]
  exact trim_append (inked_expr e) (by simp [isBlank])

/-- Whether the answer is the written value of the expression that is asked for. -/
def HasAnswer (p : Problem) : Prop := ∃ e v, e.value = .ok v ∧ p = ofExpr e v

theorem HasAnswer.evaluate_question {p : Problem} (h : p.HasAnswer) :
    ∃ v working, Expr.evaluate (question p.statement) = .ok (v, working) ∧ p.answer = v.render := by
  obtain ⟨e, v, hv, rfl⟩ := h
  refine ⟨v, e.working, ?_, rfl⟩
  rw [question_ofExpr, Expr.evaluate_render_eq, hv]
  rfl

end FractionDrill.Problem
