import FractionDrill.Expr.Evaluation
import FractionDrill.Proofs.Expr.Postfix
import FractionDrill.Proofs.Expr.Scanning

/-!
# What evaluation accepts

A text has a value exactly where it is derived by the grammar of expressions, all
of its numbers can be read, and the checked evaluation of the derivation from left
to right has that value. A derived text is never called malformed: it can only
fail by arithmetic, in a number or in the evaluation.
-/
namespace FractionDrill
namespace Expr
open Text

/-- The working that is shown for a derivation. -/
def workingOf (chain : Chain Fraction) : Working :=
  ⟨Token.renderAll chain.tokens, Token.renderAll chain.expr.postfixTokens, chain.expr.render⟩

/-- The tokens of a derived text are those of the derivation. -/
theorem ofText_of_derives {chain : Chain Literal} {s : Text} (h : chain.Derives s) :
    Token.ofText s = chain.readNumbers.map Chain.tokens := by
  have hscan : Token.scan false [] = .ok [] := by rw [Token.scan]
  unfold Token.ofText
  rw [← h, ← List.append_nil chain.text, Token.scan_chain chain Token.stopsNumber_nil, hscan]
  cases chain.readNumbers with
  | error fault => rfl
  | ok read => simp [Except.map]

/-- The tokens of a chain are evaluated as the chain itself. -/
theorem evaluate_of_tokens {chain : Chain Fraction} {s : Text}
    (h : Token.ofText s = .ok chain.tokens) :
    evaluate s = chain.value.map fun v => (v, workingOf chain) := by
  unfold evaluate
  rw [h, Except.mapError, Fault.ok_bind, Token.toPostfix_chain, Fault.ok_bind,
    ofPostfix_postfixTokens, Fault.ok_bind, chain.value_expr]
  cases chain.value <;> rfl

theorem evaluate_of_derives {chain : Chain Literal} {s : Text} (h : chain.Derives s) :
    evaluate s = do
      let read ← chain.readNumbers
      let v ← read.value
      return (v, workingOf read) := by
  have htokens := ofText_of_derives h
  cases hread : chain.readNumbers with
  | ok read =>
    rw [hread] at htokens
    rw [evaluate_of_tokens htokens, Fault.ok_bind]
    cases read.value <;> rfl
  | error fault =>
    rw [hread] at htokens
    unfold evaluate
    rw [htokens]
    rcases Token.fault_of_readChain chain hread with rfl | rfl <;> rfl

theorem fault_of_chain_value {chain : Chain Fraction} {fault : Fault}
    (h : chain.value = .error fault) : fault.IsArithmetic :=
  fault_of_value (chain.value_expr.trans h)

/-- Evaluation fails by arithmetic, or the expression is malformed. -/
theorem fault_of_evaluate {s : Text} {fault : Fault} (h : evaluate s = .error fault) :
    fault.IsArithmetic ∨ ∃ flaw, fault = .malformedExpression flaw := by
  unfold evaluate at h
  simp only [Fault.bind_eq_error_iff] at h
  rcases h with h | ⟨tokens, -, h | ⟨output, -, h | ⟨e, -, h | ⟨v, -, h⟩⟩⟩⟩
  · cases hscan : Token.ofText s with
    | ok tokens =>
      rw [hscan] at h
      cases h
    | error cause =>
      rw [hscan] at h
      cases h
      rcases Token.fault_of_scan hscan with h | ⟨text, rfl⟩ | ⟨flaw, rfl⟩
      · rcases h with rfl | rfl
        · exact .inl (.inl rfl)
        · exact .inl (.inr rfl)
      · exact .inr ⟨_, rfl⟩
      · exact .inr ⟨_, rfl⟩
  · exact .inr (Token.fault_of_toPostfix h)
  · exact .inr (fault_of_ofPostfix h)
  · exact .inl (fault_of_value h)
  · cases h

/-- A text that has a value has the tokens of a chain with that value, and the working is the
one of the chain. -/
theorem exists_chain_of_evaluate {s : Text} {v : Fraction} {working : Working}
    (h : evaluate s = .ok (v, working)) :
    ∃ chain : Chain Fraction, Token.ofText s = .ok chain.tokens ∧ chain.value = .ok v ∧
      working = workingOf chain := by
  have heval := h
  unfold evaluate at h
  obtain ⟨tokens, htokens, h⟩ := Fault.bind_eq_ok_iff.mp h
  obtain ⟨output, houtput, -⟩ := Fault.bind_eq_ok_iff.mp h
  have hscan : Token.ofText s = .ok tokens := Fault.mapError_eq_ok_iff.mp htokens
  obtain ⟨chain, rfl⟩ := Token.exists_chain_of_toPostfix houtput
  refine ⟨chain, hscan, ?_⟩
  rw [evaluate_of_tokens hscan] at heval
  cases hvalue : chain.value with
  | error fault =>
    rw [hvalue] at heval
    cases heval
  | ok w =>
    rw [hvalue] at heval
    cases heval
    exact ⟨rfl, rfl⟩

theorem exists_derives_of_evaluate {s : Text} {v : Fraction} {working : Working}
    (h : evaluate s = .ok (v, working)) :
    ∃ (chain : Chain Literal) (read : Chain Fraction),
      chain.Derives s ∧ chain.readNumbers = .ok read ∧ read.value = .ok v := by
  obtain ⟨read, htokens, hvalue, -⟩ := exists_chain_of_evaluate h
  obtain ⟨chain, htext, hread⟩ :=
    Token.exists_chain_of_spells read (Token.spells_scan htokens)
  exact ⟨chain, read, htext, hread, hvalue⟩

/-- Evaluation accepts exactly its grammar, calls no derived text malformed, and has no
faults but those of arithmetic and of form. -/
theorem evaluate_accepts (s : Text) :
    (∀ v : Fraction, (∃ working, evaluate s = .ok (v, working)) ↔
      ∃ (chain : Chain Literal) (read : Chain Fraction),
        chain.Derives s ∧ chain.readNumbers = .ok read ∧ read.value = .ok v) ∧
    (∀ flaw, evaluate s = .error (.malformedExpression flaw) → ¬Derivable s) ∧
    (∀ text, evaluate s ≠ .error (.malformedNumber text)) ∧
    (∀ bound, evaluate s ≠ .error (.boundTooSmall bound)) ∧
    (∀ wanted found, evaluate s ≠ .error (.tooFewDistinct wanted found)) := by
  have hfault : ∀ {fault : Fault}, evaluate s = .error fault →
      fault.IsArithmetic ∨ ∃ flaw, fault = .malformedExpression flaw := fault_of_evaluate
  refine ⟨?_, ?_, ?_, ?_, ?_⟩
  · intro v
    constructor
    · rintro ⟨working, h⟩
      exact exists_derives_of_evaluate h
    · rintro ⟨chain, read, hderives, hread, hvalue⟩
      refine ⟨workingOf read, ?_⟩
      rw [evaluate_of_derives hderives, hread, Fault.ok_bind, hvalue]
      rfl
  · rintro flaw h ⟨chain, hderives⟩
    rw [evaluate_of_derives hderives] at h
    rcases Fault.bind_eq_error_iff.mp h with h | ⟨read, -, h⟩
    · rcases Token.fault_of_readChain chain h with h | h <;> cases h
    · rcases Fault.bind_eq_error_iff.mp h with h | ⟨v, -, h⟩
      · rcases fault_of_chain_value h with h | h <;> cases h
      · cases h
  · intro text h
    rcases hfault h with (h | h) | ⟨flaw, h⟩ <;> cases h
  · intro bound h
    rcases hfault h with (h | h) | ⟨flaw, h⟩ <;> cases h
  · intro wanted found h
    rcases hfault h with (h | h) | ⟨flaw, h⟩ <;> cases h

/-- A sign belongs to a number, so there is none in front of a group. -/
example : answer "-(1)".toList = .error (.malformedExpression .missingLeftOperand) := by
  decide +kernel

end Expr
end FractionDrill
