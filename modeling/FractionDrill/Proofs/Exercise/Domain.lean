import FractionDrill.Exercise.Generator
import FractionDrill.Proofs.Fraction.Reading
import FractionDrill.Proofs.Random.Outcome
import Mathlib.Algebra.Order.Field.Basic

/-!
# The domain of exercises

Every exercise that can be drawn keeps to what pupils know: its numbers are whole
numbers below the bound and proper fractions within it, no part of it is negative,
differences are taken downwards, divisors are not zero, and quotients are below
one. The value that is kept with an exercise is its value, and it has at most the
allowed number of operators.
-/
namespace FractionDrill

namespace Expr

def leaves : Expr → List Fraction
  | number q => [q]
  | binary _ left right => left.leaves ++ right.leaves

/-- The expression and every operand in it, at any depth. -/
def subtrees : Expr → List Expr
  | number q => [number q]
  | binary op left right => binary op left right :: (left.subtrees ++ right.subtrees)

theorem mem_operations_binary {op : Operator} {left right : Expr}
    {operation : Operator × Expr × Expr} :
    operation ∈ (binary op left right).operations ↔
      operation = (op, left, right) ∨ operation ∈ left.operations ∨
        operation ∈ right.operations := by
  rw [operations, List.cons_append, List.mem_cons, List.mem_append]

end Expr

namespace Fraction

/-- A positive whole number below the bound. -/
def IsWholeBelow (bound : Nat) (q : Fraction) : Prop :=
  q.den = 1 ∧ 1 ≤ q.num ∧ q.num ≤ bound - 1

/-- A positive fraction below one, in lowest terms, with a denominator within the bound. -/
def IsProperWithin (bound : Nat) (q : Fraction) : Prop :=
  1 ≤ q.num ∧ q.num < q.den ∧ q.den ≤ bound ∧ q.num.natAbs.Coprime q.den

instance (bound : Nat) (q : Fraction) : Decidable (q.IsWholeBelow bound) :=
  inferInstanceAs (Decidable (_ ∧ _))

instance (bound : Nat) (q : Fraction) : Decidable (q.IsProperWithin bound) :=
  inferInstanceAs (Decidable (_ ∧ _))

theorem zero_le_iff {a : Fraction} : zero ≤ a ↔ 0 ≤ a.value := le_iff_value

theorem isWholeBelow_of_ofInt {bound n : Nat} {q : Fraction} (hn : 1 ≤ n ∧ n ≤ bound - 1)
    (h : ofInt n = .ok q) : q.IsWholeBelow bound := by
  have hvalue : q.value = (n : Rat) := by
    rw [value_of_ofParts h, Rat.divInt_one]
    rfl
  have hden : q.den = 1 := by rw [den, hvalue, Rat.den_natCast]
  have hnum : q.num = n := by rw [num, hvalue, Rat.num_natCast]
  refine ⟨hden, ?_, ?_⟩ <;> omega

theorem isProperWithin_of_ofParts {bound n d : Nat} {q : Fraction} (hn : 1 ≤ n) (hnd : n + 1 ≤ d)
    (hd : d ≤ bound) (h : ofParts n d = .ok q) : q.IsProperWithin bound := by
  have hvalue : q.value = (n : Rat) / d := by
    rw [value_of_ofParts h, Rat.divInt_eq_div]
    rfl
  have hdpos : (0 : Rat) < d := Nat.cast_pos.mpr (by omega)
  have hpos : 0 < q.value := by
    rw [hvalue]
    exact div_pos (Nat.cast_pos.mpr hn) hdpos
  have hone : q.value < 1 := by
    rw [hvalue, div_lt_one hdpos]
    exact Nat.cast_lt.mpr hnd
  refine ⟨Rat.num_pos.mpr hpos, ?_, ?_, q.value.reduced⟩
  · simpa [num, den] using (Rat.lt_iff q.value 1).mp hone
  · rw [den, hvalue]
    exact (den_div_le n (by omega)).trans hd

end Fraction

/-- The rules for exercises, for the numbers, the operands and the two operations that
could leave what pupils know. -/
structure Expr.IsExercise (bound : Nat) (e : Expr) : Prop where
  leaves : ∀ q ∈ e.leaves, q.IsWholeBelow bound ∨ q.IsProperWithin bound
  subtrees : ∀ t ∈ e.subtrees, ∃ a, t.value = .ok a ∧ Fraction.zero ≤ a
  differences : ∀ left right, (.minus, left, right) ∈ e.operations →
    ∃ a b, left.value = .ok a ∧ right.value = .ok b ∧ b ≤ a
  quotients : ∀ left right, (.divide, left, right) ∈ e.operations →
    ∃ a b q, left.value = .ok a ∧ right.value = .ok b ∧ b.isZero = false ∧
      a.div b = .ok q ∧ Fraction.zero ≤ q ∧ q < Fraction.one

namespace Valued

/-- An exercise with its value, within a bound on the numbers and a budget of operators. -/
structure WithinRules (bound budget : Nat) (v : Valued) : Prop where
  value_eq : v.expr.value = .ok v.value
  operatorCount_le : v.expr.operatorCount ≤ budget
  isExercise : v.expr.IsExercise bound

/-- A result that was not refused: the operator was applied, and a quotient is below one. -/
theorem apply_of_join {op : Operator} {a b v : Valued} (h : join op a b = some v) :
    v.expr = .binary op a.expr b.expr ∧ op.apply a.value b.value = .ok v.value ∧
      (op = .divide → v.value < Fraction.one) := by
  unfold join at h
  split at h
  · cases h
  · rename_i w hw
    split at h
    · cases h
    · rename_i hquotient
      cases h
      refine ⟨rfl, hw, ?_⟩
      intro hop
      rw [Fraction.lt_iff_value, ← not_le, ← Fraction.le_iff_value]
      exact fun hle => hquotient ⟨hop, hle⟩

/-- All that joining two exercises can do: the operator is applied to the two values,
of which a difference has the larger one first, and a quotient is below one. -/
theorem exists_of_combine {op : Operator} {left right v : Valued}
    (h : combine op left right = some v) :
    ∃ a b : Valued, (a = left ∧ b = right ∨ a = right ∧ b = left) ∧
      (op = .minus → b.value ≤ a.value) ∧
      v.expr = .binary op a.expr b.expr ∧ op.apply a.value b.value = .ok v.value ∧
      (op = .divide → v.value < Fraction.one) := by
  unfold combine at h
  by_cases hswap : op = .minus ∧ left.value < right.value
  · rw [if_pos hswap] at h
    refine ⟨right, left, .inr ⟨rfl, rfl⟩, ?_, apply_of_join h⟩
    intro _
    rw [Fraction.le_iff_value]
    exact le_of_lt (Fraction.lt_iff_value.mp hswap.2)
  · rw [if_neg hswap] at h
    refine ⟨left, right, .inl ⟨rfl, rfl⟩, ?_, apply_of_join h⟩
    intro hop
    rw [Fraction.le_iff_value, ← not_lt, ← Fraction.lt_iff_value]
    exact fun hlt => hswap ⟨hop, hlt⟩

end Valued

/-- On values that are not negative, with the larger one first in a difference, no
operation gives a negative value. -/
theorem Operator.zero_le_of_apply {op : Operator} {a b v : Fraction} (ha : Fraction.zero ≤ a)
    (hb : Fraction.zero ≤ b) (hminus : op = .minus → b ≤ a) (h : op.apply a b = .ok v) :
    Fraction.zero ≤ v := by
  rw [Fraction.zero_le_iff] at ha hb ⊢
  cases op with
  | plus =>
    rw [Fraction.value_of_add h]
    exact add_nonneg ha hb
  | minus =>
    rw [Fraction.value_of_sub h]
    exact sub_nonneg.mpr (Fraction.le_iff_value.mp (hminus rfl))
  | times =>
    rw [Fraction.value_of_mul h]
    exact mul_nonneg ha hb
  | divide =>
    rw [Fraction.value_of_div h]
    exact div_nonneg ha hb

namespace Expr

theorem self_mem_subtrees (e : Expr) : e ∈ e.subtrees := by
  cases e <;> exact List.mem_cons_self

/-- A number within the bound is an exercise. -/
theorem isExercise_number {bound : Nat} {q : Fraction}
    (h : q.IsWholeBelow bound ∨ q.IsProperWithin bound) : (number q).IsExercise bound where
  leaves := by
    intro p hp
    rw [leaves, List.mem_singleton] at hp
    exact hp ▸ h
  subtrees := by
    intro t ht
    rw [subtrees, List.mem_singleton] at ht
    refine ⟨q, ht ▸ rfl, ?_⟩
    rw [Fraction.zero_le_iff, ← Rat.num_nonneg]
    rcases h with h | h
    · exact Int.le_trans (by decide) h.2.1
    · exact Int.le_trans (by decide) h.1
  differences := by
    intro left right h
    cases h
  quotients := by
    intro left right h
    cases h

/-- Two exercises make one by an operation whose result the rules allow. -/
theorem isExercise_binary {bound : Nat} {op : Operator} {left right : Expr} {a b v : Fraction}
    (hleft : left.IsExercise bound) (hright : right.IsExercise bound)
    (ha : left.value = .ok a) (hb : right.value = .ok b) (hv : op.apply a b = .ok v)
    (hminus : op = .minus → b ≤ a) (hdivide : op = .divide → v < Fraction.one) :
    (binary op left right).IsExercise bound := by
  have hanonneg : Fraction.zero ≤ a := by
    obtain ⟨a', ha', hle⟩ := hleft.subtrees left left.self_mem_subtrees
    cases ha.symm.trans ha'
    exact hle
  have hbnonneg : Fraction.zero ≤ b := by
    obtain ⟨b', hb', hle⟩ := hright.subtrees right right.self_mem_subtrees
    cases hb.symm.trans hb'
    exact hle
  have hvnonneg : Fraction.zero ≤ v := Operator.zero_le_of_apply hanonneg hbnonneg hminus hv
  constructor
  · intro q hq
    rw [leaves, List.mem_append] at hq
    exact hq.elim (hleft.leaves q) (hright.leaves q)
  · intro t ht
    rw [subtrees, List.mem_cons, List.mem_append] at ht
    rcases ht with rfl | ht | ht
    · exact ⟨v, value_binary_eq_ok.mpr ⟨a, b, ha, hb, hv⟩, hvnonneg⟩
    · exact hleft.subtrees t ht
    · exact hright.subtrees t ht
  · intro l r h
    rw [mem_operations_binary] at h
    rcases h with h | h | h
    · cases h
      exact ⟨a, b, ha, hb, hminus rfl⟩
    · exact hleft.differences l r h
    · exact hright.differences l r h
  · intro l r h
    rw [mem_operations_binary] at h
    rcases h with h | h | h
    · cases h
      exact ⟨a, b, v, ha, hb, Fraction.isZero_of_div hv, hv, hvnonneg, hdivide rfl⟩
    · exact hleft.quotients l r h
    · exact hright.quotients l r h

end Expr

namespace Valued

theorem withinRules_number {bound : Nat} (budget : Nat) {q : Fraction}
    (h : q.IsWholeBelow bound ∨ q.IsProperWithin bound) :
    (number q).WithinRules bound budget where
  value_eq := rfl
  operatorCount_le := Nat.zero_le budget
  isExercise := Expr.isExercise_number h

/-- What is joined of two exercises is one, with one operator more than both have. -/
theorem withinRules_combine {bound k l : Nat} {op : Operator} {left right v : Valued}
    (hleft : left.WithinRules bound k) (hright : right.WithinRules bound l)
    (h : combine op left right = some v) : v.WithinRules bound (1 + k + l) := by
  have hcount : left.expr.operatorCount + right.expr.operatorCount ≤ k + l :=
    Nat.add_le_add hleft.operatorCount_le hright.operatorCount_le
  obtain ⟨a, b, hab, hminus, hexpr, hv, hdivide⟩ := exists_of_combine h
  have hoperands : (∃ k, a.WithinRules bound k) ∧ (∃ l, b.WithinRules bound l) ∧
      a.expr.operatorCount + b.expr.operatorCount ≤ k + l := by
    rcases hab with ⟨rfl, rfl⟩ | ⟨rfl, rfl⟩
    · exact ⟨⟨k, hleft⟩, ⟨l, hright⟩, hcount⟩
    · exact ⟨⟨l, hright⟩, ⟨k, hleft⟩, by omega⟩
  obtain ⟨⟨_, ha⟩, ⟨_, hb⟩, hcount⟩ := hoperands
  constructor
  · rw [hexpr]
    exact Expr.value_binary_eq_ok.mpr ⟨_, _, ha.value_eq, hb.value_eq, hv⟩
  · rw [hexpr, Expr.operatorCount]
    omega
  · rw [hexpr]
    exact Expr.isExercise_binary ha.isExercise hb.isExercise ha.value_eq hb.value_eq hv hminus
      hdivide

end Valued

namespace Rules

/-- The first success of a draw is a success of the draw. -/
theorem gives_of_firstSuccess {σ α : Type} {d : Draw σ (Option α)} {n : Nat} {a : α}
    (h : (firstSuccess d n).Gives (.ok (some a))) : d.Gives (.ok (some a)) := by
  induction n with
  | zero => cases Draw.gives_pure h
  | succ n ih =>
    obtain ⟨found, hfound, h⟩ := Draw.gives_bind_ok h
    cases found with
    | none => exact ih h
    | some b =>
      cases Draw.gives_pure h
      exact hfound

variable {σ : Type} [WordSource σ]

theorem leaf_withinRules (rules : Rules) (budget : Nat) {v : Valued}
    (h : (rules.leaf : Draw σ Valued).Gives (.ok v)) : v.WithinRules rules.bound budget := by
  obtain ⟨whole, -, h⟩ := Draw.gives_bind_ok h
  cases whole with
  | true =>
    obtain ⟨⟨n, hn⟩, -, h⟩ := Draw.gives_bind_ok h
    obtain ⟨q, hq, h⟩ := Draw.gives_bind_ok h
    cases Draw.gives_pure h
    exact Valued.withinRules_number budget
      (.inl (Fraction.isWholeBelow_of_ofInt hn (Draw.gives_ofExcept hq)))
  | false =>
    obtain ⟨⟨n, hn⟩, -, h⟩ := Draw.gives_bind_ok h
    obtain ⟨⟨d, hd⟩, -, h⟩ := Draw.gives_bind_ok h
    obtain ⟨q, hq, h⟩ := Draw.gives_bind_ok h
    cases Draw.gives_pure h
    exact Valued.withinRules_number budget
      (.inr (Fraction.isProperWithin_of_ofParts hn.1 hd.1 hd.2 (Draw.gives_ofExcept hq)))

theorem mem_of_choose {table : List Operator} {htable : 0 < table.length} {op : Operator}
    (h : (choose table htable : Draw σ Operator).Gives (.ok op)) : op ∈ table := by
  obtain ⟨i, -, h⟩ := Draw.gives_bind_ok h
  cases Draw.gives_pure h
  exact List.get_mem ..

/-- All that an attempt can do: it draws a number, or it divides its budget between two operands
and joins them by an operator of the table. -/
theorem exists_of_attempt (rules : Rules) {table : List Operator} {htable : 0 < table.length}
    {budget : Nat} {operand : (k : Nat) → k < budget → Draw σ Valued} {found : Option Valued}
    (h : (rules.attempt table htable budget operand).Gives (.ok found)) :
    (∃ v, (rules.leaf : Draw σ Valued).Gives (.ok v) ∧ found = some v) ∨
      ∃ k l hk hl left right op, 1 + k + l = budget ∧ (operand k hk).Gives (.ok left) ∧
        (operand l hl).Gives (.ok right) ∧ op ∈ table ∧ found = Valued.combine op left right := by
  unfold attempt at h
  split at h
  · obtain ⟨v, hv, h⟩ := Draw.gives_bind_ok h
    cases Draw.gives_pure h
    exact .inl ⟨v, hv, rfl⟩
  · obtain ⟨single, -, h⟩ := Draw.gives_bind_ok h
    cases single with
    | true =>
      obtain ⟨v, hv, h⟩ := Draw.gives_bind_ok h
      cases Draw.gives_pure h
      exact .inl ⟨v, hv, rfl⟩
    | false =>
      obtain ⟨k, -, h⟩ := Draw.gives_bind_ok h
      obtain ⟨left, hleft, h⟩ := Draw.gives_bind_ok h
      obtain ⟨right, hright, h⟩ := Draw.gives_bind_ok h
      obtain ⟨op, hop, h⟩ := Draw.gives_bind_ok h
      cases Draw.gives_pure h
      exact .inr ⟨k, budget - 1 - k, _, _, left, right, op, by omega, hleft, hright,
        mem_of_choose hop, rfl⟩

/-- An expression comes from an attempt, and where none is allowed from one without division. -/
theorem exists_of_expression (rules : Rules) {budget : Nat} {v : Valued}
    (h : (rules.expression budget : Draw σ Valued).Gives (.ok v)) :
    ∃ table htable, (rules.attempts = 0 → table = Operator.withoutDivision) ∧
      (rules.attempt table htable budget fun k _ => rules.expression k :
        Draw σ (Option Valued)).Gives (.ok (some v)) := by
  rw [expression] at h
  obtain ⟨free, hfree, h⟩ := Draw.gives_bind_ok h
  cases free with
  | some w =>
    cases Draw.gives_pure h
    refine ⟨Operator.all, by decide, ?_, gives_of_firstSuccess hfree⟩
    intro hnone
    rw [hnone] at hfree
    cases Draw.gives_pure hfree
  | none =>
    obtain ⟨undivided, hundivided, h⟩ := Draw.gives_bind_ok h
    cases undivided with
    | some w =>
      cases Draw.gives_pure h
      exact ⟨Operator.withoutDivision, by decide, fun _ => rfl, hundivided⟩
    | none => cases Draw.gives_throw h

/-- An attempt keeps to the rules where the operands that it draws do. -/
theorem attempt_withinRules (rules : Rules) {table : List Operator} {htable : 0 < table.length}
    {budget : Nat} {operand : (k : Nat) → k < budget → Draw σ Valued}
    (hoperand : ∀ k hk v, (operand k hk).Gives (.ok v) → v.WithinRules rules.bound k)
    {v : Valued} (h : (rules.attempt table htable budget operand).Gives (.ok (some v))) :
    v.WithinRules rules.bound budget := by
  rcases rules.exists_of_attempt h with
    ⟨w, hw, hfound⟩ | ⟨k, l, hk, hl, left, right, op, hbudget, hleft, hright, -, hfound⟩
  · cases hfound
    exact rules.leaf_withinRules budget hw
  · rw [← hbudget]
    exact Valued.withinRules_combine (hoperand k hk left hleft) (hoperand l hl right hright)
      hfound.symm

/-- Every expression that is drawn within a budget keeps to the rules. -/
theorem expression_withinRules (rules : Rules) (budget : Nat) {v : Valued}
    (h : (rules.expression budget : Draw σ Valued).Gives (.ok v)) :
    v.WithinRules rules.bound budget := by
  induction budget using Nat.strong_induction_on generalizing v with
  | _ budget ih =>
    obtain ⟨table, htable, -, hattempt⟩ := rules.exists_of_expression h
    exact rules.attempt_withinRules (fun k hk w hw => ih k hk hw) hattempt

/-- Whatever words a source yields, an exercise that is drawn from it keeps to the rules. -/
theorem exercise_withinRules (rules : Rules) (s : σ) (v : Valued)
    (h : (rules.exercise.start s).1 = .ok v) :
    v.expr.value = .ok v.value ∧ v.expr.operatorCount ≤ rules.maxOperators ∧
      v.expr.IsExercise rules.bound := by
  have hv : v.WithinRules rules.bound rules.maxOperators :=
    rules.expression_withinRules rules.maxOperators ⟨s, h⟩
  exact ⟨hv.value_eq, hv.operatorCount_le, hv.isExercise⟩

/-- A run with a difference, a quotient and a product below the bound 10. -/
theorem exercise_withinRules_ten :
    ∃ v : Valued,
      (Draw.start (Rules.mk 10 (by decide) 3 64).exercise (Script.mk [] 30)).1 = .ok v ∧
      v.expr.render = "((9/10 - (1/2 ÷ 7)) × 6)".toList ∧
      v.expr.value = .ok v.value ∧ v.expr.operatorCount ≤ 3 ∧ v.expr.IsExercise 10 := by
  have hrun : (Draw.start (Rules.mk 10 (by decide) 3 64).exercise (Script.mk [] 30)).1.map
      (fun v => v.expr.render) = .ok "((9/10 - (1/2 ÷ 7)) × 6)".toList := by decide +kernel
  cases h : (Draw.start (Rules.mk 10 (by decide) 3 64).exercise (Script.mk [] 30)).1 with
  | error fault =>
    rw [h] at hrun
    cases hrun
  | ok v =>
    rw [h] at hrun
    exact ⟨v, rfl, Except.ok.inj hrun,
      exercise_withinRules (Rules.mk 10 (by decide) 3 64) (Script.mk [] 30) v h⟩

end Rules
end FractionDrill
