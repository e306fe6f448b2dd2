import FractionDrill.Proofs.Exercise.Growth

/-!
# Overflow in random exercises

A random expression fails only by an overflow, and only where the limit on the growth
of its numbers is no word. Up to there every operation on operands that can be drawn
has a result or breaks the rule for quotients, so an attempt without division always
succeeds.
-/
namespace FractionDrill

namespace Draw

variable {σ α β : Type} {limit : Nat}

/-- Whether a draw fails by overflow alone, and only if the limit does not fit. -/
def OverflowsAbove (limit : Nat) (d : Draw σ α) : Prop :=
  ∀ fault, d.Gives (.error fault) → fault = .overflow ∧ maxPart < limit

theorem NeverFails.overflowsAbove {d : Draw σ α} (h : d.NeverFails) : d.OverflowsAbove limit :=
  fun fault hfault => absurd hfault (h fault)

theorem OverflowsAbove.mono {larger : Nat} {d : Draw σ α} (h : d.OverflowsAbove limit)
    (hle : limit ≤ larger) : d.OverflowsAbove larger :=
  fun fault hfault => ⟨(h fault hfault).1, (h fault hfault).2.trans_le hle⟩

theorem OverflowsAbove.bind {d : Draw σ α} {f : α → Draw σ β} (hd : d.OverflowsAbove limit)
    (hf : ∀ a, d.Gives (.ok a) → (f a).OverflowsAbove limit) : (d >>= f).OverflowsAbove limit := by
  intro fault h
  rcases gives_bind_error h with h | ⟨a, ha, h⟩
  · exact hd fault h
  · exact hf a ha fault h

theorem OverflowsAbove.neverFails {d : Draw σ α} (h : d.OverflowsAbove limit)
    (hlimit : limit ≤ maxPart) : d.NeverFails :=
  fun fault hfault => absurd (h fault hfault).2 (Nat.not_lt.mpr hlimit)

end Draw

theorem Fraction.overflow_of_ofParts {n d : Nat} {fault : Fault} (hd : d ≠ 0)
    (h : ofParts n d = .error fault) : fault = .overflow ∧ (maxPart < n ∨ maxPart < d) := by
  by_cases hlarge : maxPart < n ∨ maxPart < d
  · have hd : ¬(d : Int) = 0 := Int.natCast_ne_zero.mpr hd
    rw [ofParts, if_neg hd, if_pos (by simpa using hlarge)] at h
    cases h
    exact ⟨rfl, hlarge⟩
  · obtain ⟨a, ha, -⟩ := ofParts_natCast (n := n) (d := d) (by omega) (by omega) hd
    rw [ha] at h
    cases h

/-- Operands that are not joined by such an operation overflow. -/
theorem Valued.overflow_of_join {op : Operator} (hop : op ≠ .divide) {a b : Valued}
    (h : join op a b = none) : op.apply a.value b.value = .error .overflow := by
  unfold join at h
  split at h
  · rename_i fault hfault
    rw [hfault, Operator.overflow_of_apply hop hfault]
  · rw [if_neg fun hdivide => hop hdivide.1] at h
    cases h

theorem Valued.overflow_of_combine {op : Operator} (hop : op ≠ .divide) {left right : Valued}
    (h : combine op left right = none) :
    op.apply left.value right.value = .error .overflow ∨
      op.apply right.value left.value = .error .overflow := by
  unfold combine at h
  split at h
  · exact .inr (overflow_of_join hop h)
  · exact .inl (overflow_of_join hop h)

namespace Rules

open Draw

theorem firstSuccess_overflowsAbove {σ α : Type} {limit : Nat} {d : Draw σ (Option α)}
    (h : d.OverflowsAbove limit) (n : Nat) : (firstSuccess d n).OverflowsAbove limit := by
  induction n with
  | zero => exact (neverFails_pure _).overflowsAbove
  | succ n ih =>
    refine h.bind fun found _ => ?_
    cases found with
    | none => exact ih
    | some a => exact (neverFails_pure _).overflowsAbove

variable {σ : Type} [WordSource σ]

theorem leaf_overflowsAbove (rules : Rules) :
    (rules.leaf : Draw σ Valued).OverflowsAbove rules.bound := by
  refine (neverFails_chance _).overflowsAbove.bind fun whole _ => ?_
  cases whole with
  | true =>
    refine (neverFails_between _).overflowsAbove.bind fun n _ => ?_
    refine OverflowsAbove.bind ?_ fun q _ => (neverFails_pure _).overflowsAbove
    intro fault h
    have hn := n.property
    obtain ⟨rfl, hlarge⟩ := Fraction.overflow_of_ofParts (d := 1) one_ne_zero (gives_ofExcept h)
    refine ⟨rfl, ?_⟩
    unfold maxPart at *
    omega
  | false =>
    refine (neverFails_between _).overflowsAbove.bind fun n _ => ?_
    refine (neverFails_between _).overflowsAbove.bind fun d _ => ?_
    refine OverflowsAbove.bind ?_ fun q _ => (neverFails_pure _).overflowsAbove
    intro fault h
    have hn := n.property
    have hd := d.property
    obtain ⟨rfl, hlarge⟩ := Fraction.overflow_of_ofParts (by omega) (gives_ofExcept h)
    exact ⟨rfl, by omega⟩

theorem choose_neverFails {table : List Operator} (h : 0 < table.length) :
    (choose table h : Draw σ Operator).NeverFails :=
  (neverFails_below h).bind fun _ => neverFails_pure _

/-- An attempt fails where a number or an operand that it draws does. -/
theorem attempt_overflowsAbove (rules : Rules) {table : List Operator} {htable : 0 < table.length}
    {budget limit : Nat} {operand : (k : Nat) → k < budget → Draw σ Valued}
    (hbound : rules.bound ≤ limit) (hoperand : ∀ k hk, (operand k hk).OverflowsAbove limit) :
    (rules.attempt table htable budget operand).OverflowsAbove limit := by
  have hleaf : (do return some (← rules.leaf) : Draw σ (Option Valued)).OverflowsAbove limit :=
    (rules.leaf_overflowsAbove.mono hbound).bind fun _ _ => (neverFails_pure _).overflowsAbove
  unfold attempt
  split
  · exact hleaf
  · refine (neverFails_chance _).overflowsAbove.bind fun single _ => ?_
    cases single with
    | true => exact hleaf
    | false =>
      refine (neverFails_below _).overflowsAbove.bind fun k _ => ?_
      refine (hoperand k.val k.isLt).bind fun left _ => ?_
      refine (hoperand (budget - 1 - k.val) (by omega)).bind fun right _ => ?_
      exact (choose_neverFails htable).overflowsAbove.bind fun op _ =>
        (neverFails_pure _).overflowsAbove

/-- An attempt without division is refused only by an overflow of an operation. -/
theorem lt_growthLimit_of_attempt (rules : Rules) {table : List Operator}
    {htable : 0 < table.length} {budget : Nat} {operand : (k : Nat) → k < budget → Draw σ Valued}
    (hoperand : ∀ k hk v, (operand k hk).Gives (.ok v) → v.WithinRules rules.bound k)
    (hundivided : .divide ∉ table)
    (h : (rules.attempt table htable budget operand).Gives (.ok none)) :
    maxPart < growthLimit rules.bound budget := by
  have hbound : 1 ≤ rules.bound := Nat.le_of_succ_le rules.two_le_bound
  rcases rules.exists_of_attempt h with
    ⟨w, -, hfound⟩ | ⟨k, l, hk, hl, left, right, op, hbudget, hleft, hright, hop, hfound⟩
  · cases hfound
  · have hdivide : op ≠ .divide := by
      rintro rfl
      exact hundivided hop
    have hleft := (hoperand k hk left hleft).within hbound
    have hright := (hoperand l hl right hright).within hbound
    rw [← hbudget, ← growthLimit_join]
    rcases Valued.overflow_of_combine hdivide hfound.symm with h | h
    · exact (op.staysWithin_apply hleft hright).lt_of_overflow h
    · rw [Nat.mul_comm (growthLimit _ _)]
      exact (op.staysWithin_apply hright hleft).lt_of_overflow h

/-- A random expression fails by overflow alone, above the limit for its budget. -/
theorem expression_overflowsAbove (rules : Rules) (budget : Nat) :
    (rules.expression budget : Draw σ Valued).OverflowsAbove (growthLimit rules.bound budget) := by
  have hbound : 1 ≤ rules.bound := Nat.le_of_succ_le rules.two_le_bound
  induction budget using Nat.strong_induction_on with
  | _ budget ih =>
    have hleaf := le_growthLimit hbound budget
    have hoperand : ∀ k (_ : k < budget),
        (rules.expression k : Draw σ Valued).OverflowsAbove (growthLimit rules.bound budget) :=
      fun k hk => (ih k hk).mono (growthLimit_mono hbound (Nat.le_of_lt hk))
    rw [expression]
    refine OverflowsAbove.bind
      (firstSuccess_overflowsAbove (rules.attempt_overflowsAbove hleaf hoperand) _) ?_
    intro free _
    cases free with
    | some v => exact (neverFails_pure _).overflowsAbove
    | none =>
      refine (rules.attempt_overflowsAbove hleaf hoperand).bind fun undivided hundivided => ?_
      cases undivided with
      | some v => exact (neverFails_pure _).overflowsAbove
      | none =>
        intro fault h
        cases gives_throw h
        refine ⟨rfl, rules.lt_growthLimit_of_attempt ?_ (by decide) hundivided⟩
        intro k _ v hv
        exact rules.expression_withinRules k hv

end Rules
end FractionDrill
