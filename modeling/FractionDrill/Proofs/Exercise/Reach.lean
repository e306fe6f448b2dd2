import FractionDrill.Proofs.Exercise.Canonical
import FractionDrill.Proofs.Random.Tape

/-!
# Every exercise can be drawn

The rules for exercises are all that restricts what is drawn. For an expression that
observes them there are words that make it: at every operation the budget is divided so
that the left operand gets just its operators, the operands are drawn in the order in
which they stand, and the operator is taken from the table. The first attempt at every
level succeeds, so nothing depends on the number of attempts beyond the table that the
first one uses. Where no attempt is allowed that table has no division, and then the
expressions that can be drawn are those without a division at any level. The bound and
the budget are machine words here, as the numbers below them are scaled from words.
-/
namespace FractionDrill

namespace Expr

/-- What the rules ask of the numbers, the differences and the quotients in an expression. -/
structure IsAllowed (bound : Nat) (e : Expr) : Prop where
  leaves : ∀ q ∈ e.leaves, q.IsWholeBelow bound ∨ q.IsProperWithin bound
  differences : ∀ left right, (.minus, left, right) ∈ e.operations →
    ∃ a b, left.value = .ok a ∧ right.value = .ok b ∧ b ≤ a
  quotients : ∀ left right, (.divide, left, right) ∈ e.operations →
    ∃ a b q, left.value = .ok a ∧ right.value = .ok b ∧ b.isZero = false ∧
      a.div b = .ok q ∧ q < Fraction.one

variable {bound : Nat} {op : Operator} {left right : Expr}

theorem IsAllowed.of_left (h : (binary op left right).IsAllowed bound) :
    left.IsAllowed bound where
  leaves q hq := h.leaves q (List.mem_append_left _ hq)
  differences l r hmem := h.differences l r (mem_operations_binary.mpr (.inr (.inl hmem)))
  quotients l r hmem := h.quotients l r (mem_operations_binary.mpr (.inr (.inl hmem)))

theorem IsAllowed.of_right (h : (binary op left right).IsAllowed bound) :
    right.IsAllowed bound where
  leaves q hq := h.leaves q (List.mem_append_right _ hq)
  differences l r hmem := h.differences l r (mem_operations_binary.mpr (.inr (.inr hmem)))
  quotients l r hmem := h.quotients l r (mem_operations_binary.mpr (.inr (.inr hmem)))

theorem IsExercise.isAllowed {e : Expr} (h : e.IsExercise bound) : e.IsAllowed bound where
  leaves := h.leaves
  differences := h.differences
  quotients l r hmem := by
    obtain ⟨a, b, q, ha, hb, hzero, hq, -, hone⟩ := h.quotients l r hmem
    exact ⟨a, b, q, ha, hb, hzero, hq, hone⟩

end Expr

/-- Operands in an order that the rules allow are joined as they stand. -/
theorem Valued.combine_of_isAllowed {bound : Nat} {op : Operator} {left right : Expr}
    {a b v : Fraction} (h : (Expr.binary op left right).IsAllowed bound)
    (ha : left.value = .ok a) (hb : right.value = .ok b) (hv : op.apply a b = .ok v) :
    combine op ⟨left, a⟩ ⟨right, b⟩ = some ⟨.binary op left right, v⟩ := by
  have hself : (op, left, right) ∈ (Expr.binary op left right).operations := List.mem_cons_self
  have horder : ¬(op = .minus ∧ a < b) := by
    rintro ⟨rfl, hlt⟩
    obtain ⟨a', b', ha', hb', hle⟩ := h.differences left right hself
    cases ha.symm.trans ha'
    cases hb.symm.trans hb'
    exact not_lt.mpr (Fraction.le_iff_value.mp hle) (Fraction.lt_iff_value.mp hlt)
  have hquotient : ¬(op = .divide ∧ Fraction.one ≤ v) := by
    rintro ⟨rfl, hle⟩
    obtain ⟨a', b', q, ha', hb', -, hq, hlt⟩ := h.quotients left right hself
    cases ha.symm.trans ha'
    cases hb.symm.trans hb'
    cases hv.symm.trans hq
    exact not_lt.mpr (Fraction.le_iff_value.mp hle) (Fraction.lt_iff_value.mp hlt)
  simp only [combine, if_neg horder, join, hv, if_neg hquotient]

namespace Rules
open Draw

/-- The operators of the first attempt at every level. -/
def table (rules : Rules) : List Operator :=
  if rules.attempts = 0 then Operator.withoutDivision else Operator.all

/-- Words from which a number is drawn. -/
def numberWords (bound : Nat) (q : Fraction) : List UInt64 :=
  let n := q.num.natAbs
  if q.den = 1 then [0, wordBetween 1 (bound - 1) n]
  else [wholeThreshold, wordBetween 1 (bound - 1) n, wordBetween (n + 1) bound q.den]

/-- Words from which an expression is drawn within a budget of operators. -/
def expressionWords (rules : Rules) : Nat → Expr → List UInt64
  | budget, .number q =>
      if budget = 0 then numberWords rules.bound q else 0 :: numberWords rules.bound q
  | budget, .binary op left right =>
      leafThreshold :: wordFor budget left.operatorCount ::
        (rules.expressionWords left.operatorCount left ++
          (rules.expressionWords (budget - 1 - left.operatorCount) right ++
            [wordFor rules.table.length (rules.table.idxOf op)]))

variable {σ : Type} [WordSource σ]

theorem takes_leaf (rules : Rules) (hbound : rules.bound ≤ maxPart) {q : Fraction}
    (hq : q.IsWholeBelow rules.bound ∨ q.IsProperWithin rules.bound) :
    (rules.leaf : Draw σ Valued).Takes (numberWords rules.bound q) (.number q) := by
  have hparts : Fraction.ofParts q.num q.den = .ok q := q.isCanonical.2
  have htwo := rules.two_le_bound
  unfold maxPart at hbound
  rcases hq with ⟨hden, hone, hnum⟩ | ⟨hone, hnum, hden, -⟩
  · have hn : 1 ≤ q.num.natAbs ∧ q.num.natAbs ≤ rules.bound - 1 := by omega
    have hwhole : Fraction.ofInt q.num.natAbs = .ok q := by
      rw [hden] at hparts
      rwa [Int.natAbs_of_nonneg (by omega)]
    rw [numberWords, if_pos hden]
    refine (takes_chance_true (by decide)).bind_cons ?_
    refine (takes_between (by omega) (by omega) hn).bind_nil ?_
    exact (takes_ofExcept hwhole).bind_nil (takes_pure _)
  · have hn : 1 ≤ q.num.natAbs ∧ q.num.natAbs ≤ rules.bound - 1 := by omega
    have hd : q.num.natAbs + 1 ≤ q.den ∧ q.den ≤ rules.bound := by omega
    have hproper : Fraction.ofParts q.num.natAbs q.den = .ok q := by
      rwa [Int.natAbs_of_nonneg (by omega)]
    rw [numberWords, if_neg (by omega)]
    refine (takes_chance_false (by decide)).bind_cons ?_
    refine (takes_between (by omega) (by omega) hn).bind_cons ?_
    refine (takes_between (by omega) (by omega) hd).bind_nil ?_
    exact (takes_ofExcept hproper).bind_nil (takes_pure _)

theorem takes_choose {table : List Operator} (h : 0 < table.length) (hsize : table.length < 2 ^ 64)
    {op : Operator} (hop : op ∈ table) :
    (choose table h : Draw σ Operator).Takes [wordFor table.length (table.idxOf op)] op := by
  have hidx : table.idxOf op < table.length := List.idxOf_lt_length_of_mem hop
  have hget : table.get ⟨table.idxOf op, hidx⟩ = op := List.getElem_idxOf hidx
  refine (takes_below h hsize ⟨_, hidx⟩).bind_nil ?_
  rw [hget]
  exact takes_pure op

/-- An attempt that ends with a single number, whatever its budget. -/
theorem takes_attempt_number (rules : Rules) (hbound : rules.bound ≤ maxPart)
    {table : List Operator} (htable : 0 < table.length) {budget : Nat}
    (operand : (k : Nat) → k < budget → Draw σ Valued) {q : Fraction}
    (hq : q.IsWholeBelow rules.bound ∨ q.IsProperWithin rules.bound) :
    (rules.attempt table htable budget operand).Takes
      (rules.expressionWords budget (.number q)) (some (.number q)) := by
  have hleaf : (rules.leaf : Draw σ Valued).Takes (numberWords rules.bound q) (.number q) :=
    rules.takes_leaf hbound hq
  unfold attempt
  rw [expressionWords]
  split
  · exact hleaf.bind_nil (takes_pure _)
  · refine (takes_chance_true (by decide)).bind_cons ?_
    exact hleaf.bind_nil (takes_pure _)

/-- An attempt that divides its budget after `k` operators. -/
theorem takes_attempt_binary (rules : Rules) {table : List Operator} (htable : 0 < table.length)
    (hsize : table.length < 2 ^ 64) {budget k : Nat} (hbudget : budget < 2 ^ 64) (hk : k < budget)
    {operand : (k : Nat) → k < budget → Draw σ Valued} {op : Operator} (hop : op ∈ table)
    {left right : Valued} {leftWords rightWords : List UInt64}
    (hleft : (operand k hk).Takes leftWords left)
    (hright : (operand (budget - 1 - k) (by omega)).Takes rightWords right) :
    (rules.attempt table htable budget operand).Takes
      (leafThreshold :: wordFor budget k :: (leftWords ++ (rightWords ++
        [wordFor table.length (table.idxOf op)]))) (Valued.combine op left right) := by
  have hne : ¬budget = 0 := by omega
  have hpos : 0 < budget := by omega
  unfold attempt
  rw [dif_neg hne]
  refine (takes_chance_false (by decide)).bind_cons ?_
  refine (takes_below hpos hbudget ⟨k, hk⟩).bind_cons ?_
  refine hleft.bind (hright.bind ?_)
  exact (takes_choose htable hsize hop).bind_nil (takes_pure _)

theorem takes_firstSuccess {α : Type} {d : Draw σ (Option α)} {words : List UInt64} {a : α}
    (h : d.Takes words (some a)) (n : Nat) : (firstSuccess d (n + 1)).Takes words (some a) := by
  rw [firstSuccess]
  exact h.bind_nil (takes_pure (some a))

/-- The first attempt made at a level, drawing from the level's table, decides if it succeeds. -/
theorem takes_expression_of_attempt (rules : Rules) {budget : Nat} {words : List UInt64}
    {v : Valued}
    (h : ∀ (table : List Operator) (htable : 0 < table.length), rules.table = table →
      (rules.attempt table htable budget fun k _ => rules.expression k :
        Draw σ (Option Valued)).Takes words (some v)) :
    (rules.expression budget : Draw σ Valued).Takes words v := by
  rw [expression]
  by_cases hnone : rules.attempts = 0
  · have htable : rules.table = Operator.withoutDivision := if_pos hnone
    rw [hnone]
    exact (takes_pure none).bind ((h _ _ htable).bind_nil (takes_pure v))
  · have htable : rules.table = Operator.all := if_neg hnone
    obtain ⟨n, hn⟩ := Nat.exists_eq_succ_of_ne_zero hnone
    rw [hn]
    exact (takes_firstSuccess (h _ _ htable) n).bind_nil (takes_pure v)

theorem length_table_lt (rules : Rules) : rules.table.length < 2 ^ 64 := by
  unfold table
  split <;> decide

/-- The words of an expression make it, within every budget that suffices for it. -/
theorem takes_expression (rules : Rules) (hbound : rules.bound ≤ maxPart) {e : Expr} {v : Fraction}
    {budget : Nat} (hbudget : budget < 2 ^ 64) (hcount : e.operatorCount ≤ budget)
    (hallowed : e.IsAllowed rules.bound) (hvalue : e.value = .ok v)
    (htable : ∀ op left right, (op, left, right) ∈ e.operations → op ∈ rules.table) :
    (rules.expression budget : Draw σ Valued).Takes (rules.expressionWords budget e) ⟨e, v⟩ := by
  induction e generalizing v budget with
  | number q =>
    cases hvalue
    have hq := hallowed.leaves q List.mem_cons_self
    refine rules.takes_expression_of_attempt fun table hpos _ => ?_
    exact rules.takes_attempt_number hbound hpos _ hq
  | binary op left right ihl ihr =>
    obtain ⟨a, b, ha, hb, hv⟩ := Expr.value_binary_eq_ok.mp hvalue
    rw [Expr.operatorCount] at hcount
    -- The left operand gets its own operators and no more, so the rest suffices for the right one.
    have hleft : (rules.expression left.operatorCount : Draw σ Valued).Takes
        (rules.expressionWords left.operatorCount left) ⟨left, a⟩ :=
      ihl (by omega) (Nat.le_refl _) hallowed.of_left ha fun op l r hmem =>
        htable op l r (Expr.mem_operations_binary.mpr (.inr (.inl hmem)))
    have hright : (rules.expression (budget - 1 - left.operatorCount) : Draw σ Valued).Takes
        (rules.expressionWords (budget - 1 - left.operatorCount) right) ⟨right, b⟩ :=
      ihr (by omega) (by omega) hallowed.of_right hb fun op l r hmem =>
        htable op l r (Expr.mem_operations_binary.mpr (.inr (.inr hmem)))
    have hop : op ∈ rules.table := htable op left right List.mem_cons_self
    refine rules.takes_expression_of_attempt fun table hpos htable => ?_
    rw [← Valued.combine_of_isAllowed hallowed ha hb hv, expressionWords, htable]
    exact rules.takes_attempt_binary hpos (htable ▸ rules.length_table_lt) hbudget (by omega)
      (htable ▸ hop) hleft hright

/-- Whatever is drawn has operators of the table alone, at every level. -/
theorem mem_table_of_expression (rules : Rules) {budget : Nat} {v : Valued}
    (h : (rules.expression budget : Draw σ Valued).Gives (.ok v)) {op : Operator}
    {left right : Expr} (hmem : (op, left, right) ∈ v.expr.operations) : op ∈ rules.table := by
  induction budget using Nat.strong_induction_on generalizing v with
  | _ budget ih =>
    obtain ⟨table, htable, hnone, h⟩ := rules.exists_of_expression h
    have hsubset : ∀ op ∈ table, op ∈ rules.table := by
      intro op hop
      unfold Rules.table
      split
      · rwa [← hnone ‹_›]
      · cases op <;> decide
    rcases rules.exists_of_attempt h with
      ⟨w, hw, hfound⟩ | ⟨k, l, hk, hl, a, b, root, -, ha, hb, hroot, hfound⟩
    · cases hfound
      have hcount : v.expr.operatorCount ≤ 0 := (rules.leaf_withinRules 0 hw).operatorCount_le
      rw [← Expr.length_operations, Nat.le_zero, List.length_eq_zero_iff] at hcount
      rw [hcount] at hmem
      cases hmem
    · obtain ⟨first, second, horder, -, hexpr, -⟩ := Valued.exists_of_combine hfound.symm
      rw [hexpr, Expr.mem_operations_binary] at hmem
      -- A difference may have exchanged its operands, but each of them was drawn with less.
      rcases hmem with hself | hmem | hmem
      · cases hself
        exact hsubset op hroot
      · rcases horder with ⟨rfl, -⟩ | ⟨rfl, -⟩
        · exact ih k hk ha hmem
        · exact ih l hl hb hmem
      · rcases horder with ⟨-, rfl⟩ | ⟨-, rfl⟩
        · exact ih l hl hb hmem
        · exact ih k hk ha hmem

/-- What the rules admit as an exercise; nothing is said here about how it is drawn. -/
structure Admits (rules : Rules) (e : Expr) : Prop where
  exists_value : ∃ v, e.value = .ok v
  operatorCount_le : e.operatorCount ≤ rules.maxOperators
  isAllowed : e.IsAllowed rules.bound

/-- Whether some words make the expression as an exercise and are used up by it. -/
def Reaches (rules : Rules) (e : Expr) : Prop :=
  ∃ (words : List UInt64) (v : Fraction), ∀ (rest : List UInt64) (state : UInt64),
    rules.exercise.start (Script.mk (words ++ rest) state) = (.ok ⟨e, v⟩, Script.mk rest state)

theorem admits_of_exercise (rules : Rules) {v : Valued}
    (h : (rules.exercise : Draw σ Valued).Gives (.ok v)) : rules.Admits v.expr := by
  have hv : v.WithinRules rules.bound rules.maxOperators :=
    rules.expression_withinRules rules.maxOperators h
  exact ⟨⟨v.value, hv.value_eq⟩, hv.operatorCount_le, hv.isExercise.isAllowed⟩

/-- Where no attempt is allowed, nothing is divided. -/
theorem undivided_of_exercise (rules : Rules) (hnone : rules.attempts = 0) {v : Valued}
    (h : (rules.exercise : Draw σ Valued).Gives (.ok v)) (left right : Expr) :
    (.divide, left, right) ∉ v.expr.operations := by
  intro hmem
  have hdivide : Operator.divide ∈ rules.table := rules.mem_table_of_expression h hmem
  rw [Rules.table, if_pos hnone] at hdivide
  exact absurd hdivide (by decide)

theorem reaches_of_admits (rules : Rules) (hbound : rules.bound ≤ maxPart)
    (hbudget : rules.maxOperators < 2 ^ 64) {e : Expr} (h : rules.Admits e)
    (htable : ∀ op left right, (op, left, right) ∈ e.operations → op ∈ rules.table) :
    rules.Reaches e := by
  obtain ⟨v, hv⟩ := h.exists_value
  refine ⟨rules.expressionWords rules.maxOperators e, v, fun rest state => ?_⟩
  exact rules.takes_expression hbound hbudget h.operatorCount_le h.isAllowed hv htable _ _
    (WordSource.emits_script _ rest state)

theorem gives_of_reaches {rules : Rules} {e : Expr} (h : rules.Reaches e) :
    ∃ v, (rules.exercise : Draw Script Valued).Gives (.ok ⟨e, v⟩) := by
  obtain ⟨words, v, hwords⟩ := h
  exact ⟨v, Script.mk (words ++ []) 0, by rw [hwords]⟩

/-- With one attempt or more, what some words make is what the rules admit. With none it is what
they admit without any division, and no source whatsoever makes more than that. -/
theorem exercise_reaches (rules : Rules) (hbound : rules.bound ≤ maxPart)
    (hbudget : rules.maxOperators < 2 ^ 64) :
    (1 ≤ rules.attempts → ∀ e, rules.Reaches e ↔ rules.Admits e) ∧
    (rules.attempts = 0 → ∀ e, rules.Reaches e ↔
      rules.Admits e ∧ ∀ left right, (.divide, left, right) ∉ e.operations) ∧
    (rules.attempts = 0 → ∀ {σ : Type} [WordSource σ] (s : σ) (v : Valued),
      (rules.exercise.start s).1 = .ok v →
        rules.Admits v.expr ∧ ∀ left right, (.divide, left, right) ∉ v.expr.operations) := by
  refine ⟨?_, ?_, ?_⟩
  · intro hattempts e
    constructor
    · intro h
      obtain ⟨v, hv⟩ := gives_of_reaches h
      exact rules.admits_of_exercise hv
    · intro h
      refine rules.reaches_of_admits hbound hbudget h fun op _ _ _ => ?_
      rw [table, if_neg (by omega)]
      cases op <;> decide
  · intro hnone e
    constructor
    · intro h
      obtain ⟨v, hv⟩ := gives_of_reaches h
      exact ⟨rules.admits_of_exercise hv, rules.undivided_of_exercise hnone hv⟩
    · rintro ⟨h, hundivided⟩
      refine rules.reaches_of_admits hbound hbudget h fun op left right hmem => ?_
      rw [table, if_pos hnone]
      cases op with
      | plus => decide
      | minus => decide
      | times => decide
      | divide => exact absurd hmem (hundivided left right)
  · intro hnone σ _ s v h
    exact ⟨rules.admits_of_exercise ⟨s, h⟩, rules.undivided_of_exercise hnone ⟨s, h⟩⟩

/-- A quotient of a difference needs an attempt, and the difference alone does not. -/
theorem exercise_reaches_quotient :
    ∃ difference quotient : Expr, difference.render = "(3 - 1/2)".toList ∧
      quotient.render = "((3 - 1/2) ÷ 3)".toList ∧
      (Rules.mk 4 (by decide) 2 1).Reaches quotient ∧
      (Rules.mk 4 (by decide) 2 0).Reaches difference ∧
      ¬(Rules.mk 4 (by decide) 2 0).Reaches quotient := by
  let three : Fraction := ⟨3, by decide, by decide⟩
  let half : Fraction := ⟨1 / 2, by decide +kernel, by decide +kernel⟩
  let difference : Expr := .binary .minus (.number three) (.number half)
  let quotient : Expr := .binary .divide difference (.number three)
  let fiveHalves : Fraction := ⟨5 / 2, by decide +kernel, by decide +kernel⟩
  let fiveSixths : Fraction := ⟨5 / 6, by decide +kernel, by decide +kernel⟩
  have hthree : (Expr.number three).IsExercise 4 := Expr.isExercise_number (.inl (by decide))
  have hhalf : (Expr.number half).IsExercise 4 :=
    Expr.isExercise_number (.inr (by decide +kernel))
  have hsub : Operator.minus.apply three half = .ok fiveHalves := by decide +kernel
  have hdiv : Operator.divide.apply fiveHalves three = .ok fiveSixths := by decide +kernel
  have hdifference : difference.IsExercise 4 :=
    Expr.isExercise_binary hthree hhalf rfl rfl hsub (fun _ => by decide +kernel) nofun
  have hquotient : quotient.IsExercise 4 :=
    Expr.isExercise_binary hdifference hthree hsub rfl hdiv nofun fun _ => by decide +kernel
  have hundivided : ∀ left right, (.divide, left, right) ∉ difference.operations := by
    intro left right h
    cases h with
    | tail _ h => cases h
  obtain ⟨hone, -, -⟩ := exercise_reaches (Rules.mk 4 (by decide) 2 1) (by decide) (by decide)
  obtain ⟨-, hnone, -⟩ := exercise_reaches (Rules.mk 4 (by decide) 2 0) (by decide) (by decide)
  refine ⟨difference, quotient, by decide +kernel, by decide +kernel, ?_, ?_, ?_⟩
  · exact (hone (by decide) quotient).mpr
      ⟨⟨fiveSixths, by decide +kernel⟩, by decide, hquotient.isAllowed⟩
  · exact (hnone rfl difference).mpr
      ⟨⟨⟨fiveHalves, by decide +kernel⟩, by decide, hdifference.isAllowed⟩, hundivided⟩
  · intro h
    exact ((hnone rfl quotient).mp h).2 difference (.number three) List.mem_cons_self

end Rules
end FractionDrill
