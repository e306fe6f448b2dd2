import FractionDrill.Proofs.Exercise.Course
import FractionDrill.Proofs.Expr.Listing
import Mathlib.Data.List.DropRight

/-!
# Keys of problems

The key of a problem is found from the end of its statement, and the question that
is graded from the start of it. Both are the expression as it was written, and an
expression is known by its text. So two problems have one key exactly where they
have one tree, whatever their answers are, and a batch drops an exercise exactly
where its tree was drawn before.
-/
namespace FractionDrill
open Text

namespace Expr

/-- The text of an expression tells it from all others. -/
theorem render_injective {e f : Expr} (h : e.render = f.render) : e = f := by
  have htokens : e.tokens = f.tokens := by
    have htext := ofText_render e
    rw [h, ofText_render f] at htext
    exact (Except.ok.inj htext).symm
  have hpostfix : e.postfixTokens = f.postfixTokens := by
    have harranged := toPostfix_tokens e
    rw [htokens, toPostfix_tokens f] at harranged
    exact (Except.ok.inj harranged).symm
  exact postfixTokens_injective hpostfix

end Expr

namespace Problem

/-- Blanks, equals signs and blanks again are dropped from the end, and the last of them is
preceded by ink. -/
theorem key_ofExpr (e : Expr) (v : Fraction) : (ofExpr e v).key = e.render := by
  have hblank : trimEnd (e.render ++ [' '] ++ ['='] ++ [' ']) = e.render ++ [' '] ++ ['='] := by
    have hspace := List.rdropWhile_concat_pos isBlank (e.render ++ [' '] ++ ['=']) ' ' rfl
    have hequals := List.rdropWhile_concat_neg isBlank (e.render ++ [' ']) '=' (by decide)
    exact hspace.trans hequals
  have hdrop : dropEquals (e.render ++ [' '] ++ ['=']) = e.render ++ [' '] := by
    have hequals := List.rdropWhile_concat_pos (· == '=') (e.render ++ [' ']) '=' rfl
    have hspace := List.rdropWhile_concat_neg (· == '=') e.render ' ' (by decide)
    exact hequals.trans hspace
  have hstatement : (ofExpr e v).statement = e.render ++ [' '] ++ ['='] ++ [' '] := by
    simp [ofExpr]
  rw [key, hstatement, hblank, hdrop, trimEnd_append (inked_expr e) (by simp [isBlank])]

theorem key_ofExpr_eq_iff {e f : Expr} {v w : Fraction} :
    (ofExpr e v).key = (ofExpr f w).key ↔ e = f := by
  rw [key_ofExpr, key_ofExpr]
  constructor
  · exact Expr.render_injective
  · exact congrArg Expr.render

end Problem

namespace Batch

/-- First occurrences of keys are first occurrences of trees. -/
theorem exists_kept_of_firstOccurrences (drawn : List Valued) :
    ∃ kept : List Valued, kept.Sublist drawn ∧
      firstOccurrences (drawn.map Valued.problem) = kept.map Valued.problem ∧
      (kept.map Valued.expr).Nodup ∧ ∀ v ∈ drawn, ∃ w ∈ kept, w.expr = v.expr := by
  obtain ⟨kept, hsublist, hkept⟩ :=
    List.sublist_map_iff.mp (firstOccurrences_sublist (drawn.map Valued.problem))
  have hkey : ∀ v : Valued, v.problem.key = v.expr.render := fun v =>
    Problem.key_ofExpr v.expr v.value
  refine ⟨kept, hsublist, hkept, ?_, fun v hv => ?_⟩
  · have hnodup := nodup_keys_firstOccurrences (drawn.map Valued.problem)
    rw [hkept, List.map_map] at hnodup
    have hrender : kept.map (Problem.key ∘ Valued.problem) =
        (kept.map Valued.expr).map Expr.render := by
      simp [hkey]
    rw [hrender] at hnodup
    exact hnodup.of_map Expr.render
  · have hmem : v.problem.key ∈ (kept.map Valued.problem).map Problem.key := by
      rw [← hkept, key_mem_firstOccurrences]
      exact List.mem_map_of_mem (List.mem_map_of_mem hv)
    rw [List.map_map, List.mem_map] at hmem
    obtain ⟨w, hw, hsame⟩ := hmem
    exact ⟨w, hw, Problem.key_ofExpr_eq_iff.mp hsame⟩

end Batch

namespace Problem

/-- The key of a problem is the text of its tree, which is also what is graded, and it is the key
of no other tree. So a batch keeps one exercise for every tree that was drawn. -/
theorem key_identifies_tree :
    (∀ (e : Expr) (v : Fraction),
      (ofExpr e v).key = e.render ∧ question (ofExpr e v).statement = e.render) ∧
    (∀ (e f : Expr) (v w : Fraction), (ofExpr e v).key = (ofExpr f w).key ↔ e = f) ∧
    (∀ {σ : Type} [WordSource σ] (rules : Rules) (size : Nat) (s : σ) (batch : List Problem),
      ((rules.batch size).start s).1 = .ok batch →
      ∃ (drawn kept : List Valued) (t : σ), rules.exercise.Yields s drawn t ∧
        kept.Sublist drawn ∧ batch = kept.map Valued.problem ∧
        (kept.map Valued.expr).Nodup ∧ ∀ v ∈ drawn, ∃ w ∈ kept, w.expr = v.expr) := by
  refine ⟨fun e v => ?_, fun e f v w => ?_, fun rules size s batch h => ?_⟩
  · exact ⟨key_ofExpr e v, question_ofExpr e v⟩
  · exact key_ofExpr_eq_iff
  · obtain ⟨problems, t, hyields, -, rfl⟩ := Batch.exists_yields_of_start h
    obtain ⟨drawn, hdrawn, rfl⟩ := Draw.Yields.exists_map hyields
    obtain ⟨kept, hkept⟩ := Batch.exists_kept_of_firstOccurrences drawn
    exact ⟨drawn, kept, t, hdrawn, hkept⟩

/-- A batch of two for which the first exercise is drawn three times. -/
theorem key_identifies_tree_repeated :
    ∃ (rules : Rules) (s t : Script) (batch : List Problem) (drawn kept : List Valued),
      ((rules.batch 2).start s).1 = .ok batch ∧
      batch.map Problem.key = ["1".toList, "1/2".toList] ∧
      rules.exercise.Yields s drawn t ∧ kept.Sublist drawn ∧
      batch = kept.map Valued.problem ∧ (kept.map Valued.expr).Nodup ∧
      ∀ v ∈ drawn, ∃ w ∈ kept, w.expr = v.expr := by
  let rules : Rules := .mk 2 (by decide) 0 64
  let s : Script := ⟨[], 7⟩
  let batch : List Problem := [⟨"1 = ".toList, "1".toList⟩, ⟨"1/2 = ".toList, "1/2".toList⟩]
  have hbatch : ((rules.batch 2).start s).1 = .ok batch := by
    rw [Rules.batch, Batch.ofDraws_eq]
    decide +kernel
  obtain ⟨drawn, kept, t, hdrawn⟩ := key_identifies_tree.2.2 rules 2 s batch hbatch
  exact ⟨rules, s, t, batch, drawn, kept, hbatch, by decide +kernel, hdrawn⟩

end Problem
end FractionDrill
