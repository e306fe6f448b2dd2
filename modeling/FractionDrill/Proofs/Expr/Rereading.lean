import FractionDrill.Proofs.Expr.RoundTrip

/-!
# Workings read back

Tokens are written with a space between neighbours, and all spaces are dropped
again when they are read. So nothing but the grammar keeps two neighbours apart:
no two numbers stand side by side in a list that the pass accepts, and a minus
sign before a number is the sign of that number exactly where an operand is
expected. Hence an evaluation can be repeated from each text of its working.
-/
namespace FractionDrill
open Text

namespace Token

theorem isInk_of_mem_token {t : Token} {c : Char} (h : c ∈ t.render) : IsInk c := by
  cases t with
  | number q => exact isInk_of_mem_fraction h
  | operator op =>
    rw [List.mem_singleton.mp h]
    exact isInk_symbol op
  | opening =>
    rw [List.mem_singleton.mp h]
    exact ⟨rfl, by decide⟩
  | closing =>
    rw [List.mem_singleton.mp h]
    exact ⟨rfl, by decide⟩

@[simp] theorem filter_token (t : Token) : (t.render.filter fun c => !isBlank c) = t.render := by
  rw [List.filter_eq_self]
  intro c hc
  simp [(isInk_of_mem_token hc).1]

/-- Only the spaces between the tokens are blank. -/
theorem filter_renderAll (tokens : List Token) :
    ((renderAll tokens).filter fun c => !isBlank c) = tokens.flatMap render := by
  have hspace : isBlank ' ' = true := rfl
  induction tokens with
  | nil => rfl
  | cons t rest ih =>
    cases rest with
    | nil => simp [renderAll]
    | cons u rest =>
      rw [renderAll, List.map_cons] at ih
      simp [renderAll, List.filter_append, hspace, ih]

/-- Tokens written side by side spell themselves, each number by its own literal. -/
theorem spells_render (tokens : List Token) : Spells tokens (tokens.flatMap render) := by
  induction tokens with
  | nil => exact .nil
  | cons t rest ih =>
    rw [List.flatMap_cons]
    cases t with
    | number q =>
      have hread : Fraction.read q.literal.text = .ok q := by
        rw [q.text_literal, Fraction.read_render]
      rw [render, ← q.text_literal]
      exact .number hread ih
    | operator op => exact .operator op ih
    | opening => exact .opening ih
    | closing => exact .closing ih

/-- The tokens of a chain are read back from their text. -/
theorem ofText_renderAll (chain : Chain Fraction) :
    ofText (renderAll chain.tokens) = .ok chain.tokens := by
  have hspells : Spells chain.tokens ((renderAll chain.tokens).filter fun c => !isBlank c) := by
    rw [filter_renderAll]
    exact spells_render chain.tokens
  obtain ⟨written, htext, hread⟩ := exists_chain_of_spells chain hspells
  have hderives : written.Derives (renderAll chain.tokens) := htext
  rw [Expr.ofText_of_derives hderives, hread]
  rfl

end Token

namespace Expr

theorem evaluate_tokens_of_evaluate {s : Text} {v : Fraction} {working : Working}
    (h : evaluate s = .ok (v, working)) : evaluate working.tokens = .ok (v, working) := by
  obtain ⟨chain, -, hvalue, rfl⟩ := exists_chain_of_evaluate h
  have htokens : Token.ofText (workingOf chain).tokens = .ok chain.tokens :=
    Token.ofText_renderAll chain
  rw [evaluate_of_tokens htokens, hvalue]
  rfl

/-- The tree of a working has more parentheses than the text may have had, so the tokens
of its own working may be others. -/
theorem evaluate_tree_of_evaluate {s : Text} {v : Fraction} {working : Working}
    (h : evaluate s = .ok (v, working)) :
    ∃ again, evaluate working.tree = .ok (v, again) ∧
      again.postfixList = working.postfixList ∧ again.tree = working.tree := by
  obtain ⟨chain, -, hvalue, rfl⟩ := exists_chain_of_evaluate h
  have hexpr : chain.expr.value = .ok v := chain.value_expr.trans hvalue
  refine ⟨chain.expr.working, ?_, rfl, rfl⟩
  rw [workingOf, evaluate_render_eq, hexpr]
  rfl

/-- A written value is its own answer. -/
theorem answer_render (v : Fraction) : answer v.render = .ok v.render := by
  have hvalue : evaluate v.render = .ok (v, (number v).working) := evaluate_render_eq (number v)
  rw [answer, hvalue]
  rfl

/-- Every list of tokens that the pass accepts is read back from its text. So the tokens and the
tree that a working shows have the value of the text they come from, with the same working but for
the tokens of the tree, and the written value is its own answer. -/
theorem working_reads_back :
    (∀ tokens output, Token.toPostfix tokens = .ok output →
      Token.ofText (Token.renderAll tokens) = .ok tokens) ∧
    (∀ s v working, evaluate s = .ok (v, working) →
      evaluate working.tokens = .ok (v, working) ∧
      (∃ again, evaluate working.tree = .ok (v, again) ∧
        again.postfixList = working.postfixList ∧ again.tree = working.tree) ∧
      answer v.render = .ok v.render) := by
  constructor
  · intro tokens output h
    obtain ⟨chain, rfl⟩ := Token.exists_chain_of_toPostfix h
    exact Token.ofText_renderAll chain
  · intro s v working h
    exact ⟨evaluate_tokens_of_evaluate h, evaluate_tree_of_evaluate h, answer_render v⟩

/-- An operator and a sign that stand side by side are told apart once more in the tokens. -/
theorem working_reads_back_signed :
    ∃ tokens output v working,
      Token.toPostfix tokens = .ok output ∧
      Token.renderAll tokens = "2 - -1'1/2 × 3".toList ∧
      Token.ofText (Token.renderAll tokens) = .ok tokens ∧
      evaluate "2--3/2×3".toList = .ok (v, working) ∧
      working.tokens = "2 - -1'1/2 × 3".toList ∧
      working.tree = "((2 - -1'1/2) × 3)".toList ∧
      v.render = "10'1/2".toList ∧
      evaluate working.tokens = .ok (v, working) ∧
      (∃ again, evaluate working.tree = .ok (v, again) ∧
        again.postfixList = working.postfixList ∧ again.tree = working.tree) ∧
      answer v.render = .ok v.render := by
  obtain ⟨htokens, hworking⟩ := working_reads_back
  let two : Fraction := ⟨2, by decide, by decide⟩
  let three : Fraction := ⟨3, by decide, by decide⟩
  let lower : Fraction := ⟨mkRat (-3) 2, by decide +kernel, by decide +kernel⟩
  let v : Fraction := ⟨mkRat 21 2, by decide +kernel, by decide +kernel⟩
  let working : Working :=
    ⟨"2 - -1'1/2 × 3".toList, "2 -1'1/2 - 3 ×".toList, "((2 - -1'1/2) × 3)".toList⟩
  have hevaluate : evaluate "2--3/2×3".toList = .ok (v, working) := by decide +kernel
  have harranged : Token.toPostfix [.number two, .operator .minus, .number lower,
      .operator .times, .number three] =
        .ok [.number two, .number lower, .operator .minus, .number three, .operator .times] := rfl
  obtain ⟨hsame, htree, hanswer⟩ := hworking _ v working hevaluate
  exact ⟨_, _, v, working, harranged, by decide +kernel, htokens _ _ harranged, hevaluate, rfl, rfl,
    by decide +kernel, hsame, htree, hanswer⟩

/-- Numbers side by side are no chain, and they are read as one number. -/
example : Token.ofText (Token.renderAll [.number .one, .number .one]) =
    .ok [.number ⟨11, by decide, by decide⟩] := by
  decide +kernel

end Expr
end FractionDrill
