import FractionDrill.Proofs.Expr.Postfix

/-!
# Lists of tokens and the expressions they list

While an expression is rebuilt from a postfix list, the stack always lists what was
read: the postfix lists of its expressions, joined from the bottom, are the tokens up
to there. So a list that leaves one expression is the postfix list of that expression
and of no other, and every other list is refused.

A chain is an operand with further operands behind it, each after an operator, and its
expression is folded over them from the left. The pass over a list of tokens ends well
exactly where the list is such a chain, and its output lists the folded expression.
-/
namespace FractionDrill
namespace Expr

/-- The tokens that a stack of expressions stands for; the first of them lie at the bottom. -/
def listing : List Expr → List Token
  | [] => []
  | e :: below => listing below ++ e.postfixTokens

theorem listing_build {stack stack' : List Expr} {t : Token} (h : build stack t = .ok stack') :
    listing stack' = listing stack ++ [t] := by
  cases t with
  | number q =>
    cases h
    rfl
  | operator op =>
    cases stack with
    | nil => cases h
    | cons right stack =>
      cases stack with
      | nil => cases h
      | cons left below =>
        -- The right operand lies on top, so its tokens are the later ones.
        cases h
        simp only [listing, postfixTokens, List.append_assoc]
  | opening => cases h
  | closing => cases h

/-- Whatever was read is listed by the stack, after what it listed before. -/
theorem listing_foldlM_build {stack stack' : List Expr} {tokens : List Token}
    (h : tokens.foldlM build stack = .ok stack') :
    listing stack' = listing stack ++ tokens := by
  induction tokens generalizing stack with
  | nil =>
    cases h
    rw [List.append_nil]
  | cons t rest ih =>
    rw [List.foldlM_cons] at h
    obtain ⟨next, hnext, h⟩ := Fault.bind_eq_ok_iff.mp h
    rw [ih h, listing_build hnext, List.append_assoc, List.singleton_append]

theorem eq_postfixTokens_of_ofPostfix {tokens : List Token} {e : Expr}
    (h : ofPostfix tokens = .ok e) : tokens = e.postfixTokens := by
  obtain ⟨stack, hrun, h⟩ := Fault.bind_eq_ok_iff.mp h
  have hlisting : listing stack = tokens := listing_foldlM_build hrun
  split at h
  · cases h
    exact hlisting.symm
  · cases h

theorem ofPostfix_eq_ok_iff {tokens : List Token} {e : Expr} :
    ofPostfix tokens = .ok e ↔ tokens = e.postfixTokens := by
  constructor
  · exact eq_postfixTokens_of_ofPostfix
  · intro h
    rw [h, ofPostfix_postfixTokens]

/-- A list that is the postfix list of nothing is malformed. -/
theorem malformed_of_ofPostfix {tokens : List Token} (h : ∀ e : Expr, tokens ≠ e.postfixTokens) :
    ∃ flaw, ofPostfix tokens = .error (.malformedExpression flaw) := by
  cases hresult : ofPostfix tokens with
  | ok e => exact absurd (eq_postfixTokens_of_ofPostfix hresult) (h e)
  | error fault =>
    obtain ⟨flaw, rfl⟩ := fault_of_ofPostfix hresult
    exact ⟨flaw, rfl⟩

theorem postfixTokens_injective {e f : Expr} (h : e.postfixTokens = f.postfixTokens) : e = f := by
  have hf : ofPostfix e.postfixTokens = .ok f := ofPostfix_eq_ok_iff.mpr h
  rw [ofPostfix_postfixTokens] at hf
  exact Except.ok.inj hf

theorem postfixTokens_ne_nil (e : Expr) : e.postfixTokens ≠ [] := by
  cases e <;> simp [postfixTokens]

/-- A postfix list needs no parentheses. -/
theorem not_parenthesis_of_mem {e : Expr} {t : Token} (h : t ∈ e.postfixTokens) :
    t ≠ .opening ∧ t ≠ .closing := by
  induction e with
  | number q =>
    simp [List.mem_singleton.mp h]
  | binary op left right ihl ihr =>
    rw [postfixTokens, List.mem_append, List.mem_append] at h
    rcases h with (h | h) | h
    · exact ihl h
    · exact ihr h
    · simp [List.mem_singleton.mp h]

theorem ne_postfixTokens {tokens : List Token}
    (h : .opening ∈ tokens ∨ .closing ∈ tokens ∨ tokens = []) (e : Expr) :
    tokens ≠ e.postfixTokens := by
  intro htokens
  rw [htokens] at h
  rcases h with h | h | h
  · exact (not_parenthesis_of_mem h).1 rfl
  · exact (not_parenthesis_of_mem h).2 rfl
  · exact e.postfixTokens_ne_nil h

/-- Rebuilding inverts listing: a list gives the one expression whose postfix list it is, and a
list of none, such as one with a parenthesis in it, is malformed. -/
theorem ofPostfix_inverts :
    (∀ (tokens : List Token) (e : Expr), ofPostfix tokens = .ok e ↔ tokens = e.postfixTokens) ∧
    (∀ e f : Expr, e.postfixTokens = f.postfixTokens → e = f) ∧
    (∀ tokens : List Token, (∀ e : Expr, tokens ≠ e.postfixTokens) →
      ∃ flaw, ofPostfix tokens = .error (.malformedExpression flaw)) ∧
    (∀ tokens : List Token, .opening ∈ tokens ∨ .closing ∈ tokens ∨ tokens = [] →
      ∃ flaw, ofPostfix tokens = .error (.malformedExpression flaw)) := by
  refine ⟨?_, ?_, ?_, ?_⟩
  · intro tokens e
    exact ofPostfix_eq_ok_iff
  · intro e f h
    exact postfixTokens_injective h
  · intro tokens h
    exact malformed_of_ofPostfix h
  · intro tokens h
    exact malformed_of_ofPostfix (ne_postfixTokens h)

/-- The order of two operands shows in the list, and a closing parenthesis spoils it. -/
theorem ofPostfix_inverts_difference :
    ∃ a b : Fraction, a ≠ b ∧
      ofPostfix [.number a, .number b, .operator .minus] =
        .ok (.binary .minus (.number a) (.number b)) ∧
      (binary .minus (number a) (number b)).postfixTokens ≠
        (binary .minus (number b) (number a)).postfixTokens ∧
      (∃ flaw, ofPostfix [.number a, .closing] = .error (.malformedExpression flaw)) ∧
      ∃ flaw, ofPostfix [.number a, .number b] = .error (.malformedExpression flaw) := by
  obtain ⟨hiff, hinjective, hnone, hparenthesis⟩ := ofPostfix_inverts
  have hne : Fraction.zero ≠ Fraction.one := by decide
  refine ⟨.zero, .one, hne, (hiff _ _).mpr rfl, ?_, hparenthesis _ (by simp), hnone _ ?_⟩
  · intro h
    have hexpr := hinjective _ _ h
    simp [hne] at hexpr
  · intro e h
    have hexpr := (hiff _ e).mpr h
    cases hexpr

end Expr

namespace Operand

/-- An operand, and further operands that each follow an operator. -/
def chainTokens (first : Operand Fraction) (later : List (Operator × Operand Fraction)) :
    List Token :=
  first.tokens ++ later.flatMap fun step => .operator step.1 :: step.2.tokens

/-- The operators of a chain applied from left to right, whichever they are. -/
def foldLeft (first : Operand Fraction) (later : List (Operator × Operand Fraction)) : Expr :=
  later.foldl (fun e step => .binary step.1 e step.2.expr) first.expr

end Operand

namespace Chain

/-- The chain with further operands at its end. -/
def extend (chain : Chain Fraction) (later : List (Operator × Operand Fraction)) :
    Chain Fraction :=
  later.foldl (fun left step => .join left step.1 step.2) chain

theorem tokens_extend (chain : Chain Fraction) (later : List (Operator × Operand Fraction)) :
    (chain.extend later).tokens =
      chain.tokens ++ later.flatMap fun step => .operator step.1 :: step.2.tokens := by
  induction later generalizing chain with
  | nil => exact (List.append_nil _).symm
  | cons step later ih =>
    have hstep := ih (.join chain step.1 step.2)
    rw [tokens, List.append_assoc] at hstep
    exact hstep

theorem expr_extend (chain : Chain Fraction) (later : List (Operator × Operand Fraction)) :
    (chain.extend later).expr =
      later.foldl (fun e step => .binary step.1 e step.2.expr) chain.expr := by
  induction later generalizing chain with
  | nil => rfl
  | cons step later ih => exact ih (.join chain step.1 step.2)

/-- Every chain, also one in a group, is an operand that is extended. -/
theorem exists_eq_extend (chain : Chain Fraction) :
    ∃ first later, chain = extend (.single first) later := by
  cases chain with
  | single operand => exact ⟨operand, [], rfl⟩
  | join left op right =>
    obtain ⟨first, later, hleft⟩ := left.exists_eq_extend
    refine ⟨first, later ++ [(op, right)], ?_⟩
    rw [hleft, extend, extend, List.foldl_append]
    rfl

theorem exists_chainTokens (chain : Chain Fraction) :
    ∃ first later, chain.tokens = Operand.chainTokens first later ∧
      chain.expr = Operand.foldLeft first later := by
  obtain ⟨first, later, rfl⟩ := chain.exists_eq_extend
  exact ⟨first, later, tokens_extend _ later, expr_extend _ later⟩

end Chain

namespace Token
open Operand

theorem toPostfix_chainTokens (first : Operand Fraction)
    (later : List (Operator × Operand Fraction)) :
    toPostfix (chainTokens first later) = .ok (foldLeft first later).postfixTokens := by
  have hchain := toPostfix_chain (Chain.extend (.single first) later)
  rw [Chain.tokens_extend, Chain.expr_extend] at hchain
  exact hchain

theorem exists_chainTokens_of_toPostfix {tokens output : List Token}
    (h : toPostfix tokens = .ok output) : ∃ first later, tokens = chainTokens first later := by
  obtain ⟨chain, rfl⟩ := exists_chain_of_toPostfix h
  obtain ⟨first, later, htokens, -⟩ := chain.exists_chainTokens
  exact ⟨first, later, htokens⟩

/-- The pass accepts exactly the chains, whose groups hold chains again. The expression of a chain
is folded from the left, its postfix list is the output, and it is rebuilt from there. Every list
that is no chain is malformed. -/
theorem toPostfix_accepts (tokens : List Token) :
    ((∃ output, toPostfix tokens = .ok output) ↔
      ∃ first later, tokens = chainTokens first later) ∧
    (∀ first later, tokens = chainTokens first later →
      toPostfix tokens = .ok (foldLeft first later).postfixTokens ∧
      Expr.ofPostfix (foldLeft first later).postfixTokens = .ok (foldLeft first later)) ∧
    ((¬∃ first later, tokens = chainTokens first later) →
      ∃ flaw, toPostfix tokens = .error (.malformedExpression flaw)) ∧
    (∀ chain : Chain Fraction,
      (Operand.group chain).tokens = .opening :: (chain.tokens ++ [.closing]) ∧
      (Operand.group chain).expr = chain.expr ∧
      ∃ first later, chain.tokens = chainTokens first later ∧
        chain.expr = foldLeft first later) := by
  refine ⟨?_, ?_, ?_, ?_⟩
  · constructor
    · rintro ⟨output, h⟩
      exact exists_chainTokens_of_toPostfix h
    · rintro ⟨first, later, rfl⟩
      exact ⟨_, toPostfix_chainTokens first later⟩
  · rintro first later rfl
    exact ⟨toPostfix_chainTokens first later, Expr.ofPostfix_postfixTokens _⟩
  · intro h
    cases hresult : toPostfix tokens with
    | ok output => exact absurd (exists_chainTokens_of_toPostfix hresult) h
    | error fault =>
      obtain ⟨flaw, rfl⟩ := fault_of_toPostfix hresult
      exact ⟨flaw, rfl⟩
  · intro chain
    exact ⟨rfl, rfl, chain.exists_chainTokens⟩

/-- A product that follows a difference takes all of it, and a group in front of a number is no
operand of anything. -/
theorem toPostfix_accepts_left_to_right :
    ∃ a b : Fraction, a ≠ b ∧
      (∃ first later, [.number a, .operator .minus, .number b, .operator .times, .number b] =
        chainTokens first later) ∧
      toPostfix [.number a, .operator .minus, .number b, .operator .times, .number b] =
        .ok [.number a, .number b, .operator .minus, .number b, .operator .times] ∧
      ∃ flaw, toPostfix [.opening, .number a, .closing, .number b] =
        .error (.malformedExpression flaw) := by
  have hne : Fraction.zero ≠ Fraction.one := by decide
  let later : List (Operator × Operand Fraction) :=
    [(.minus, .number .one), (.times, .number .one)]
  have hchain : [.number .zero, .operator .minus, .number .one, .operator .times, .number .one] =
      chainTokens (.number .zero) later := rfl
  have hgroup : ¬∃ first later, [.opening, .number .zero, .closing, .number .one] =
      chainTokens first later := by
    rintro ⟨first, later, h⟩
    have hok := (toPostfix_accepts _).1.mpr ⟨first, later, h⟩
    obtain ⟨output, houtput⟩ := hok
    cases houtput
  exact ⟨.zero, .one, hne, ⟨_, later, hchain⟩, ((toPostfix_accepts _).2.1 _ later hchain).1,
    (toPostfix_accepts _).2.2.1 hgroup⟩

end Token
end FractionDrill
