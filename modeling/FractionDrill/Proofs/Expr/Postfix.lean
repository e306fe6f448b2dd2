import FractionDrill.Proofs.Expr.Grammar

/-!
# Postfix lists of derivations

The pass over a list of tokens accepts exactly the lists that are derived by a
chain, and its output is the postfix list of the expression that the chain stands
for. An expression is rebuilt from its postfix list.

A state of the pass is described by the groups that are open. Of every open group
all that was read is either nothing or a chain with an operator after it, so at
most one operator of each group waits at any time.
-/
namespace FractionDrill
namespace Arrangement

/-- What was read of a group before its open operand. -/
inductive Lead where
  | start
  | after (left : Chain Fraction) (op : Operator)

namespace Lead

def tokens : Lead → List Token
  | start => []
  | after left op => left.tokens ++ [.operator op]

/-- The output of a group so far, the last token first. -/
def done : Lead → List Token
  | start => []
  | after left _ => left.expr.postfixTokens.reverse

def waiting : Lead → List Waiting
  | start => []
  | after _ op => [.operator op]

/-- The chain that ends with the given operand. -/
def close : Lead → Operand Fraction → Chain Fraction
  | start, operand => .single operand
  | after left op, operand => .join left op operand

/-- What stands before the last operand of a chain. -/
def of : Chain Fraction → Lead
  | .single _ => start
  | .join left op _ => after left op

theorem close_of (chain : Chain Fraction) : (of chain).close chain.last = chain := by
  cases chain <;> rfl

theorem tokens_close (lead : Lead) (operand : Operand Fraction) :
    (lead.close operand).tokens = lead.tokens ++ operand.tokens := by
  cases lead with
  | start => rfl
  | after left op => simp [close, tokens, Chain.tokens]

end Lead

/-- The groups that are open, the innermost first; the last of them is the whole list. -/
structure Nest where
  here : Lead := .start
  outer : List Lead := []

namespace Nest

def tokensOf : List Lead → List Token
  | [] => []
  | lead :: outer => tokensOf outer ++ (lead.tokens ++ [.opening])

def doneOf : List Lead → List Token
  | [] => []
  | lead :: outer => lead.done ++ doneOf outer

def waitingOf : List Lead → List Waiting
  | [] => []
  | lead :: outer => .opening :: (lead.waiting ++ waitingOf outer)

def tokens (n : Nest) : List Token := tokensOf n.outer ++ n.here.tokens

/-- The state in which the open operand is about to be read. -/
def expecting (n : Nest) : State :=
  ⟨n.here.done ++ doneOf n.outer, n.here.waiting ++ waitingOf n.outer, false⟩

/-- The state in which the open operand has been read. -/
def holding (n : Nest) (operand : Operand Fraction) : State :=
  ⟨operand.expr.postfixTokens.reverse ++ (n.here.done ++ doneOf n.outer),
    n.here.waiting ++ waitingOf n.outer, true⟩

theorem release_waitingOf (done : List Token) (outer : List Lead) :
    release done (waitingOf outer) = (done, waitingOf outer) := by
  cases outer <;> rfl

/-- Only the operator before the open operand is released, and it ends the chain. -/
theorem release_holding (n : Nest) (operand : Operand Fraction) :
    release (n.holding operand).done (n.holding operand).waiting =
      ((n.here.close operand).expr.postfixTokens.reverse ++ doneOf n.outer,
        waitingOf n.outer) := by
  obtain ⟨here, outer⟩ := n
  cases here with
  | start => exact release_waitingOf _ outer
  | after left op =>
    simp only [holding, Lead.done, Lead.waiting, Lead.close, List.cons_append, List.nil_append,
      release, release_waitingOf, Chain.expr, Expr.postfixTokens, List.reverse_append,
      List.reverse_cons, List.reverse_nil, List.append_assoc]

theorem step_number (n : Nest) (q : Fraction) :
    step n.expecting (.number q) = .ok (n.holding (.number q)) := rfl

theorem step_opening (n : Nest) :
    step n.expecting .opening = .ok (Nest.mk .start (n.here :: n.outer)).expecting := rfl

theorem step_operator (n : Nest) (operand : Operand Fraction) (op : Operator) :
    step (n.holding operand) (.operator op) =
      .ok (Nest.mk (.after (n.here.close operand) op) n.outer).expecting := by
  have h : (n.holding operand).afterValue = true := rfl
  simp only [step, h, Bool.not_true, Bool.false_eq_true, if_false, release_holding]
  rfl

theorem step_closing (here lead : Lead) (outer : List Lead) (operand : Operand Fraction) :
    step ((Nest.mk here (lead :: outer)).holding operand) .closing =
      .ok ((Nest.mk lead outer).holding (.group (here.close operand))) := by
  have h : ((Nest.mk here (lead :: outer)).holding operand).afterValue = true := rfl
  simp only [step, h, Bool.not_true, Bool.false_eq_true, if_false, release_holding]
  rfl

theorem step_closing_outermost (here : Lead) (operand : Operand Fraction) :
    step ((Nest.mk here []).holding operand) .closing = refuse .unmatchedClosing := by
  have h : ((Nest.mk here []).holding operand).afterValue = true := rfl
  simp only [step, h, Bool.not_true, Bool.false_eq_true, if_false, release_holding]
  rfl

end Nest

/-- The states that a pass can be in after a list of tokens. -/
inductive Reached : List Token → State → Prop
  | expecting (n : Nest) : Reached n.tokens n.expecting
  | holding (n : Nest) (operand : Operand Fraction) :
      Reached (n.tokens ++ operand.tokens) (n.holding operand)

theorem reached_step {tokens : List Token} {s s' : State} {t : Token} (h : Reached tokens s)
    (hstep : step s t = .ok s') : Reached (tokens ++ [t]) s' := by
  cases h with
  | expecting n =>
    cases t with
    | number q =>
      rw [n.step_number q] at hstep
      cases hstep
      exact .holding n (.number q)
    | opening =>
      rw [n.step_opening] at hstep
      cases hstep
      have htokens : n.tokens ++ [.opening] = (Nest.mk .start (n.here :: n.outer)).tokens := by
        simp [Nest.tokens, Nest.tokensOf, Lead.tokens]
      rw [htokens]
      exact .expecting _
    | closing => cases hstep
    | operator op => cases hstep
  | holding n operand =>
    obtain ⟨here, outer⟩ := n
    cases t with
    | number q => cases hstep
    | opening => cases hstep
    | closing =>
      cases outer with
      | nil =>
        rw [Nest.step_closing_outermost] at hstep
        cases hstep
      | cons lead outer =>
        rw [Nest.step_closing] at hstep
        cases hstep
        have htokens : (Nest.mk here (lead :: outer)).tokens ++ operand.tokens ++ [.closing] =
            (Nest.mk lead outer).tokens ++ (Operand.group (here.close operand)).tokens := by
          simp [Nest.tokens, Nest.tokensOf, Operand.tokens, Lead.tokens_close]
        rw [htokens]
        exact .holding _ _
    | operator op =>
      rw [Nest.step_operator] at hstep
      cases hstep
      have htokens : (Nest.mk here outer).tokens ++ operand.tokens ++ [.operator op] =
          (Nest.mk (.after (here.close operand) op) outer).tokens := by
        simp [Nest.tokens, Lead.tokens, Lead.tokens_close]
      rw [htokens]
      exact .expecting _

theorem reached_foldlM {before tokens : List Token} {s s' : State} (h : Reached before s)
    (hrun : tokens.foldlM step s = .ok s') : Reached (before ++ tokens) s' := by
  induction tokens generalizing before s with
  | nil =>
    cases hrun
    rw [List.append_nil]
    exact h
  | cons t rest ih =>
    rw [List.foldlM_cons] at hrun
    obtain ⟨u, hu, hrest⟩ := Fault.bind_eq_ok_iff.mp hrun
    rw [List.append_cons]
    exact ih (reached_step h hu) hrest

/-- A pass can only end with no group open, and then it has read one chain. -/
theorem exists_chain_of_finish {tokens output : List Token} {s : State} (h : Reached tokens s)
    (hfinish : finish s = .ok output) : ∃ chain : Chain Fraction, chain.tokens = tokens := by
  cases h with
  | expecting n => cases hfinish
  | holding n operand =>
    have hvalue : (n.holding operand).afterValue = true := rfl
    simp only [finish, hvalue, Bool.not_true, Bool.false_eq_true, if_false,
      Nest.release_holding] at hfinish
    obtain ⟨here, outer⟩ := n
    cases outer with
    | nil => exact ⟨here.close operand, by rw [Lead.tokens_close]; rfl⟩
    | cons lead outer => cases hfinish

theorem finish_holding (here : Lead) (operand : Operand Fraction) :
    finish ((Nest.mk here []).holding operand) =
      .ok (here.close operand).expr.postfixTokens := by
  have hvalue : ((Nest.mk here []).holding operand).afterValue = true := rfl
  simp only [finish, hvalue, Bool.not_true, Bool.false_eq_true, if_false, Nest.release_holding,
    Nest.doneOf, Nest.waitingOf, List.append_nil, List.reverse_reverse]

mutual

/-- The pass reads the tokens of an operand wherever one is expected. -/
theorem foldlM_operand (n : Nest) : ∀ operand : Operand Fraction,
    operand.tokens.foldlM step n.expecting = .ok (n.holding operand)
  | .number q => by
      rw [Operand.tokens, List.foldlM_cons, n.step_number q, Fault.ok_bind, List.foldlM_nil]
      rfl
  | .group chain => by
      have hinner := foldlM_chain (n.here :: n.outer) chain
      have hclosing := Nest.step_closing (Lead.of chain) n.here n.outer chain.last
      rw [Lead.close_of] at hclosing
      rw [Operand.tokens, List.foldlM_cons, n.step_opening, Fault.ok_bind, List.foldlM_append,
        hinner, Fault.ok_bind, List.foldlM_cons, hclosing, Fault.ok_bind, List.foldlM_nil]
      rfl

/-- After a chain its last operand is held, and what stands before it is the lead. -/
theorem foldlM_chain (outer : List Lead) : ∀ chain : Chain Fraction,
    chain.tokens.foldlM step (Nest.mk .start outer).expecting =
      .ok ((Nest.mk (Lead.of chain) outer).holding chain.last)
  | .single operand => by
      rw [Chain.tokens, foldlM_operand]
      rfl
  | .join left op right => by
      have hleft := foldlM_chain outer left
      have hright := foldlM_operand (Nest.mk (.after left op) outer) right
      have hop := Nest.step_operator (Nest.mk (Lead.of left) outer) left.last op
      rw [Lead.close_of] at hop
      rw [Chain.tokens, List.foldlM_append, hleft, Fault.ok_bind, List.foldlM_cons, hop,
        Fault.ok_bind]
      exact hright

end

theorem fault_of_step {s : State} {t : Token} {fault : Fault} (h : step s t = .error fault) :
    ∃ flaw, fault = .malformedExpression flaw := by
  unfold step refuse at h
  split at h
  · split at h <;> cases h
    exact ⟨_, rfl⟩
  · split at h <;> cases h
    exact ⟨_, rfl⟩
  · split at h
    · cases h
      exact ⟨_, rfl⟩
    · split at h <;> cases h
      exact ⟨_, rfl⟩
  · split at h
    · cases h
      exact ⟨_, rfl⟩
    · cases h

theorem fault_of_finish {s : State} {fault : Fault} (h : finish s = .error fault) :
    ∃ flaw, fault = .malformedExpression flaw := by
  unfold finish at h
  split at h
  · cases h
    exact ⟨_, rfl⟩
  · split at h <;> cases h
    exact ⟨_, rfl⟩

end Arrangement

namespace Token
open Arrangement

theorem toPostfix_eq {tokens : List Token} (h : tokens ≠ []) :
    toPostfix tokens = tokens.foldlM step {} >>= finish := by
  cases tokens with
  | nil => exact absurd rfl h
  | cons t rest => rfl

theorem toPostfix_chain (chain : Chain Fraction) :
    toPostfix chain.tokens = .ok chain.expr.postfixTokens := by
  have hstart : ({} : State) = (Nest.mk .start []).expecting := rfl
  rw [toPostfix_eq chain.tokens_ne_nil, hstart, foldlM_chain, Fault.ok_bind, finish_holding,
    Lead.close_of]

/-- Every list that the pass accepts is derived by a chain. -/
theorem exists_chain_of_toPostfix {tokens output : List Token}
    (h : toPostfix tokens = .ok output) : ∃ chain : Chain Fraction, chain.tokens = tokens := by
  have hne : tokens ≠ [] := by
    rintro rfl
    cases h
  rw [toPostfix_eq hne] at h
  obtain ⟨s, hrun, hfinish⟩ := Fault.bind_eq_ok_iff.mp h
  exact exists_chain_of_finish (reached_foldlM (.expecting {}) hrun) hfinish

theorem fault_of_toPostfix {tokens : List Token} {fault : Fault}
    (h : toPostfix tokens = .error fault) : ∃ flaw, fault = .malformedExpression flaw := by
  cases tokens with
  | nil =>
    cases h
    exact ⟨.empty, rfl⟩
  | cons t rest =>
    rw [toPostfix_eq (List.cons_ne_nil t rest)] at h
    rcases Fault.bind_eq_error_iff.mp h with h | ⟨s, -, h⟩
    · exact Fault.of_foldlM (fun hstep => fault_of_step hstep) h
    · exact fault_of_finish h

end Token

namespace Expr

theorem foldlM_build_postfixTokens (e : Expr) (stack : List Expr) :
    e.postfixTokens.foldlM build stack = .ok (e :: stack) := by
  induction e generalizing stack with
  | number q => rfl
  | binary op left right ihl ihr =>
    rw [postfixTokens, List.foldlM_append, List.foldlM_append, ihl, Fault.ok_bind, ihr,
      Fault.ok_bind]
    rfl

/-- An expression is rebuilt from its postfix list. -/
theorem ofPostfix_postfixTokens (e : Expr) : ofPostfix e.postfixTokens = .ok e := by
  rw [ofPostfix, foldlM_build_postfixTokens, Fault.ok_bind]

theorem fault_of_build {stack : List Expr} {t : Token} {fault : Fault}
    (h : build stack t = .error fault) : ∃ flaw, fault = .malformedExpression flaw := by
  unfold build at h
  split at h
  · cases h
  · split at h
    · cases h
    · cases h
      exact ⟨_, rfl⟩
  · cases h
    exact ⟨_, rfl⟩
  · cases h
    exact ⟨_, rfl⟩

theorem fault_of_ofPostfix {tokens : List Token} {fault : Fault}
    (h : ofPostfix tokens = .error fault) : ∃ flaw, fault = .malformedExpression flaw := by
  rcases Fault.bind_eq_error_iff.mp h with h | ⟨stack, -, h⟩
  · exact Fault.of_foldlM (fun hbuild => fault_of_build hbuild) h
  · split at h
    · cases h
    · cases h
      exact ⟨_, rfl⟩

end Expr
end FractionDrill
