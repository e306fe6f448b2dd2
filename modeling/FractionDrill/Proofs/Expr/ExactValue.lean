import FractionDrill.Proofs.Exercise.Growth

/-!
# Exact values of expressions

Over the rational numbers an expression has a value unless it divides by zero
somewhere. Checked evaluation gives no other value. It reports a division by zero
only where the two operands of a division were evaluated and the divisor is zero,
and in every other case that it refuses a number did not fit. Where the parts of
the numbers are small for the operators, all numbers fit, so the zero divisors alone
decide whether there is a value.
-/
namespace FractionDrill

namespace Operator

/-- The operation on rational numbers, without a quotient by zero. -/
def combine? : Operator → Rat → Rat → Option Rat
  | plus, x, y => some (x + y)
  | minus, x, y => some (x - y)
  | times, x, y => some (x * y)
  | divide, x, y => if y = 0 then none else some (x / y)

theorem combine?_eq_none_iff {op : Operator} {x y : Rat} :
    op.combine? x y = none ↔ op = .divide ∧ y = 0 := by
  cases op <;> simp [combine?]

/-- A result of checked arithmetic is the exact result. -/
theorem combine?_of_apply {op : Operator} {a b c : Fraction} (h : op.apply a b = .ok c) :
    op.combine? a.value b.value = some c.value := by
  cases op with
  | plus => rw [combine?, Fraction.value_of_add h]
  | minus => rw [combine?, Fraction.value_of_sub h]
  | times => rw [combine?, Fraction.value_of_mul h]
  | divide =>
    have hb : b.value ≠ 0 := by
      intro hzero
      rw [← Fraction.isZero_iff_value, Fraction.isZero_of_div h] at hzero
      cases hzero
    rw [combine?, if_neg hb, Fraction.value_of_div h]

end Operator

namespace Expr

/-- The value over the rational numbers, without any limit on their size. -/
def exactValue? : Expr → Option Rat
  | number q => some q.value
  | binary op left right => do
      let x ← left.exactValue?
      let y ← right.exactValue?
      op.combine? x y

/-- Whether some operation divides by an operand whose exact value is zero. -/
def HasZeroDivisor (e : Expr) : Prop :=
  ∃ left right, (.divide, left, right) ∈ e.operations ∧ right.exactValue? = some 0

theorem hasZeroDivisor_binary {op : Operator} {left right : Expr} :
    (binary op left right).HasZeroDivisor ↔
      op = .divide ∧ right.exactValue? = some 0 ∨ left.HasZeroDivisor ∨
        right.HasZeroDivisor := by
  simp only [HasZeroDivisor, mem_operations_binary]
  constructor
  · rintro ⟨l, r, h | h | h, hzero⟩
    · cases h
      exact .inl ⟨rfl, hzero⟩
    · exact .inr (.inl ⟨l, r, h, hzero⟩)
    · exact .inr (.inr ⟨l, r, h, hzero⟩)
  · rintro (⟨rfl, hzero⟩ | ⟨l, r, h, hzero⟩ | ⟨l, r, h, hzero⟩)
    · exact ⟨left, right, .inl rfl, hzero⟩
    · exact ⟨l, r, .inr (.inl h), hzero⟩
    · exact ⟨l, r, .inr (.inr h), hzero⟩

theorem exactValue?_binary_eq_none {op : Operator} {left right : Expr} :
    (binary op left right).exactValue? = none ↔
      left.exactValue? = none ∨ right.exactValue? = none ∨
        op = .divide ∧ right.exactValue? = some 0 := by
  rw [exactValue?]
  cases left.exactValue? with
  | none => simp
  | some x =>
    cases right.exactValue? with
    | none => simp
    | some y => simp [Operator.combine?_eq_none_iff]

/-- A zero divisor, however deep in an expression, is all that can take its exact value away. -/
theorem exactValue?_eq_none_iff {e : Expr} : e.exactValue? = none ↔ e.HasZeroDivisor := by
  induction e with
  | number q => simp [exactValue?, HasZeroDivisor, operations]
  | binary op left right ihl ihr =>
    rw [exactValue?_binary_eq_none, hasZeroDivisor_binary, ihl, ihr]
    tauto

/-- Checked evaluation gives the exact value where it gives one. -/
theorem exactValue?_of_value {e : Expr} {v : Fraction} (h : e.value = .ok v) :
    e.exactValue? = some v.value := by
  induction e generalizing v with
  | number q =>
    cases h
    rfl
  | binary op left right ihl ihr =>
    obtain ⟨a, b, ha, hb, hv⟩ := value_binary_eq_ok.mp h
    rw [exactValue?, ihl ha, ihr hb]
    exact Operator.combine?_of_apply hv

/-- A division by zero is reported at a division whose two operands have values. -/
theorem exists_division_of_value {e : Expr} (h : e.value = .error .divisionByZero) :
    ∃ left right a b, (.divide, left, right) ∈ e.operations ∧
      left.value = .ok a ∧ right.value = .ok b ∧ b.value = 0 := by
  induction e with
  | number q => cases h
  | binary op left right ihl ihr =>
    simp only [mem_operations_binary]
    simp only [value, Fault.bind_eq_error_iff] at h
    rcases h with h | ⟨a, ha, h | ⟨b, hb, h⟩⟩
    · obtain ⟨l, r, a, b, hmem, hvalues⟩ := ihl h
      exact ⟨l, r, a, b, .inr (.inl hmem), hvalues⟩
    · obtain ⟨l, r, a, b, hmem, hvalues⟩ := ihr h
      exact ⟨l, r, a, b, .inr (.inr hmem), hvalues⟩
    · obtain ⟨rfl, hzero⟩ := Operator.zero_of_apply h
      exact ⟨left, right, a, b, .inl rfl, ha, hb, hzero⟩

theorem not_hasZeroDivisor_of_value {e : Expr} {v : Fraction} (h : e.value = .ok v) :
    ¬e.HasZeroDivisor := by
  rw [← exactValue?_eq_none_iff, exactValue?_of_value h]
  nofun

theorem hasZeroDivisor_of_value {e : Expr} (h : e.value = .error .divisionByZero) :
    e.HasZeroDivisor := by
  obtain ⟨left, right, a, b, hmem, -, hb, hzero⟩ := exists_division_of_value h
  exact ⟨left, right, hmem, by rw [exactValue?_of_value hb, hzero]⟩

/-- Where nothing overflows, an expression without a zero divisor has a value. -/
theorem exists_value_iff {e : Expr} (h : e.value ≠ .error .overflow) :
    (∃ v, e.value = .ok v) ↔ ¬e.HasZeroDivisor := by
  constructor
  · rintro ⟨v, hv⟩
    exact not_hasZeroDivisor_of_value hv
  · intro hdivisors
    cases hvalue : e.value with
    | ok v => exact ⟨v, rfl⟩
    | error fault =>
      rcases fault_of_value hvalue with rfl | rfl
      · exact absurd (hasZeroDivisor_of_value hvalue) hdivisors
      · exact absurd hvalue h

/-- Evaluation against the exact value: what a value, a division by zero and any other fault
mean, and when there is no overflow. -/
theorem value_exact (e : Expr) :
    (e.exactValue? = none ↔ e.HasZeroDivisor) ∧
    (∀ v, e.value = .ok v → ¬e.HasZeroDivisor ∧ e.exactValue? = some v.value) ∧
    (e.value = .error .divisionByZero → ∃ left right a b,
      (.divide, left, right) ∈ e.operations ∧ left.value = .ok a ∧ right.value = .ok b ∧
        right.exactValue? = some 0) ∧
    (∀ fault, e.value = .error fault → fault = .divisionByZero ∨ fault = .overflow) ∧
    (∀ limit, 1 ≤ limit → (∀ q ∈ e.leaves, q.num.natAbs ≤ limit ∧ q.den ≤ limit) →
      2 ^ e.operatorCount * limit ^ (e.operatorCount + 1) ≤ maxPart →
        e.value ≠ .error .overflow ∧ ((∃ v, e.value = .ok v) ↔ ¬e.HasZeroDivisor)) := by
  refine ⟨exactValue?_eq_none_iff, ?_, ?_, ?_, ?_⟩
  · intro v hv
    exact ⟨not_hasZeroDivisor_of_value hv, exactValue?_of_value hv⟩
  · intro h
    obtain ⟨left, right, a, b, hmem, ha, hb, hzero⟩ := exists_division_of_value h
    exact ⟨left, right, a, b, hmem, ha, hb, by rw [exactValue?_of_value hb, hzero]⟩
  · intro fault hfault
    exact fault_of_value hfault
  · intro limit hlimit hleaves hgrowth
    have hwithin : ∀ q ∈ e.leaves, q.Within limit :=
      fun q hq => ⟨(hleaves q hq).1, (hleaves q hq).2⟩
    have hoverflow : e.value ≠ .error .overflow := fun h =>
      absurd ((staysWithin_value hlimit hwithin).lt_of_overflow h) (Nat.not_lt.mpr hgrowth)
    exact ⟨hoverflow, exists_value_iff hoverflow⟩

/-- A negative value of two operators on parts up to seven, a divisor that vanishes, and a sum
above the largest whole number. -/
theorem value_exact_small :
    (∃ e : Expr, e.render = "((2/7 ÷ 3) - 5)".toList ∧ e.operatorCount = 2 ∧
      (∀ q ∈ e.leaves, q.num.natAbs ≤ 7 ∧ q.den ≤ 7) ∧ 2 ^ 2 * 7 ^ 3 ≤ maxPart ∧
      e.value ≠ .error .overflow ∧ ((∃ v, e.value = .ok v) ↔ ¬e.HasZeroDivisor) ∧
      ∃ v, e.value = .ok v ∧ ¬e.HasZeroDivisor ∧ e.exactValue? = some v.value ∧
        v.value = -103 / 21) ∧
    (∃ e : Expr, e.render = "(5 + (3 ÷ (2/7 - 2/7)))".toList ∧
      e.value = .error .divisionByZero ∧ ∃ left right a b,
        (.divide, left, right) ∈ e.operations ∧ left.value = .ok a ∧ right.value = .ok b ∧
          right.exactValue? = some 0) ∧
    (∃ e : Expr, e.render = "(9223372036854775807 + 5)".toList ∧ ∃ fault,
      e.value = .error fault ∧ (fault = .divisionByZero ∨ fault = .overflow)) := by
  let two : Fraction := ⟨2 / 7, by decide +kernel, by decide +kernel⟩
  let three : Fraction := ⟨3, by decide, by decide⟩
  let five : Fraction := ⟨5, by decide, by decide⟩
  let largest : Fraction := ⟨0x7fffffffffffffff, by decide, by decide⟩
  let result : Fraction := ⟨-103 / 21, by decide +kernel, by decide +kernel⟩
  refine ⟨?_, ?_, ?_⟩
  · let e : Expr := .binary .minus (.binary .divide (.number two) (.number three)) (.number five)
    have hv : e.value = .ok result := by decide +kernel
    have hleaves : ∀ q ∈ e.leaves, q.num.natAbs ≤ 7 ∧ q.den ≤ 7 := by decide +kernel
    obtain ⟨-, hexact, -, -, hlimit⟩ := value_exact e
    have hgrowth := hlimit 7 (by decide) hleaves (by decide)
    exact ⟨e, by decide +kernel, rfl, hleaves, by decide, hgrowth.1, hgrowth.2, result, hv,
      (hexact result hv).1, (hexact result hv).2, rfl⟩
  · let e : Expr := .binary .plus (.number five)
      (.binary .divide (.number three) (.binary .minus (.number two) (.number two)))
    have hzero : e.value = .error .divisionByZero := by decide +kernel
    exact ⟨e, by decide +kernel, hzero, (value_exact e).2.2.1 hzero⟩
  · let e : Expr := .binary .plus (.number largest) (.number five)
    have hfault : e.value = .error .overflow := by decide +kernel
    exact ⟨e, by decide +kernel, .overflow, hfault, (value_exact e).2.2.2.1 .overflow hfault⟩

end Expr
end FractionDrill
