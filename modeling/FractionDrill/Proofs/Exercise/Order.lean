import FractionDrill.Proofs.Exercise.Domain

/-!
# The order of fractions and of the operands of a difference

Fractions are compared by their cross products, and a difference is taken over the
least common multiple of the denominators. The first is defined for any two
fractions, and the second is refused where a number on the way is no word. Both
follow the exact values, so wherever the difference is taken its sign is the one that
the comparison gives. An exercise puts the larger operand of a difference first by
comparing the two, and its result is therefore never negative.
-/
namespace FractionDrill

namespace Fraction
variable {a b c : Fraction}

theorem compare_eq_lt_iff : compare a b = .lt ↔ a < b := Int.compare_eq_lt

theorem compare_eq_gt_iff : compare a b = .gt ↔ b < a := Int.compare_eq_gt

theorem value_eq_iff : a.value = b.value ↔ a = b := by
  constructor
  · exact ext_value
  · rintro rfl
    rfl

/-- Numbers in lowest terms have equal cross products only where their parts are equal. -/
theorem compare_eq_eq_iff : compare a b = .eq ↔ a = b := by
  rw [← value_eq_iff, Rat.eq_iff_mul_eq_mul]
  exact Int.compare_eq_eq

theorem eq_iff_parts : a = b ↔ a.num = b.num ∧ a.den = b.den := by
  constructor
  · rintro rfl
    exact ⟨rfl, rfl⟩
  · rintro ⟨hnum, hden⟩
    exact ext_value (Rat.ext hnum hden)

/-- The outcome of a comparison is that of comparing the exact values. -/
theorem compare_eq_value : compare a b = Ord.compare a.value b.value := by
  rcases lt_trichotomy a.value b.value with h | h | h
  · rw [compare_lt_iff_lt.mpr h, compare_eq_lt_iff, lt_iff_value]
    exact h
  · rw [compare_eq_iff_eq.mpr h, compare_eq_eq_iff]
    exact ext_value h
  · rw [compare_gt_iff_gt.mpr h, compare_eq_gt_iff, lt_iff_value]
    exact h

instance : Std.IsLinearOrder Fraction where
  le_refl a := le_iff_value.mpr le_rfl
  le_trans a b c hab hbc :=
    le_iff_value.mpr ((le_iff_value.mp hab).trans (le_iff_value.mp hbc))
  le_antisymm a b hab hba :=
    ext_value (le_antisymm (le_iff_value.mp hab) (le_iff_value.mp hba))
  le_total a b := by
    simp only [le_iff_value]
    exact le_total a.value b.value

instance : Std.LawfulOrderLT Fraction where
  lt_iff a b := by
    simp only [lt_iff_value, le_iff_value]
    exact lt_iff_le_not_ge

instance : Std.LawfulOrderOrd Fraction where
  isLE_compare _ _ := Int.isLE_compare
  isGE_compare _ _ := Int.isGE_compare

/-- A difference that is taken has the sign that the comparison gives. -/
theorem sign_of_sub (h : a.sub b = .ok c) :
    (c.num < 0 ↔ a < b) ∧ (c.num = 0 ↔ a = b) ∧ (0 < c.num ↔ b < a) := by
  have hvalue : c.value = a.value - b.value := value_of_sub h
  refine ⟨?_, ?_, ?_⟩
  · rw [num, Rat.num_neg, hvalue, sub_neg, lt_iff_value]
  · rw [num, Rat.num_eq_zero, hvalue, sub_eq_zero, value_eq_iff]
  · rw [num, Rat.num_pos, hvalue, sub_pos, lt_iff_value]

end Fraction

namespace Valued

/-- A difference is taken downwards: its operands are the two that were given, the larger
one first. -/
theorem exists_of_combine_minus {left right v : Valued} (h : combine .minus left right = some v) :
    ∃ a b : Valued, (a = left ∧ b = right ∨ a = right ∧ b = left) ∧ b.value ≤ a.value ∧
      v.expr = .binary .minus a.expr b.expr ∧ a.value.sub b.value = .ok v.value ∧
      0 ≤ v.value.num := by
  obtain ⟨a, b, hoperands, horder, hexpr, hvalue, -⟩ := exists_of_combine h
  have hle : b.value ≤ a.value := horder rfl
  have hnonneg : 0 ≤ v.value.num := by
    rw [← Int.not_lt, (Fraction.sign_of_sub hvalue).1, Fraction.lt_iff_value, not_lt,
      ← Fraction.le_iff_value]
    exact hle
  exact ⟨a, b, hoperands, hle, hexpr, hvalue, hnonneg⟩

end Valued

/-- The order is that of the exact values, it is total with equality on parts alone, and a
difference has the sign that it gives; so no difference in an exercise is negative. -/
theorem Fraction.order_exact :
    (∀ a b : Fraction, compare a b = Ord.compare a.value b.value ∧
      (a < b ↔ a.value < b.value) ∧ (a ≤ b ↔ a.value ≤ b.value) ∧
      (compare a b = .eq ↔ a.num = b.num ∧ a.den = b.den)) ∧
    (Std.IsLinearOrder Fraction ∧ Std.LawfulOrderLT Fraction ∧ Std.LawfulOrderOrd Fraction) ∧
    (∀ a b c : Fraction, a.sub b = .ok c →
      (c.num < 0 ↔ a < b) ∧ (c.num = 0 ↔ a = b) ∧ (0 < c.num ↔ b < a)) ∧
    (∀ left right v : Valued, Valued.combine .minus left right = some v →
      ∃ a b : Valued, (a = left ∧ b = right ∨ a = right ∧ b = left) ∧ b.value ≤ a.value ∧
        v.expr = .binary .minus a.expr b.expr ∧ a.value.sub b.value = .ok v.value ∧
        0 ≤ v.value.num) := by
  refine ⟨?_, ⟨inferInstance, inferInstance, inferInstance⟩, ?_, ?_⟩
  · intro a b
    exact ⟨compare_eq_value, lt_iff_value, le_iff_value, compare_eq_eq_iff.trans eq_iff_parts⟩
  · intro a b c h
    exact sign_of_sub h
  · intro left right v h
    exact Valued.exists_of_combine_minus h

/-- The largest fraction below one and the one before it: their difference has too large a
denominator, and they are compared all the same. Where the difference is taken it is negative, and
an exercise takes it the other way round. -/
theorem Fraction.order_exact_at_limits :
    (∃ a b : Fraction, a.num = 0x7ffffffffffffffd ∧ a.den = 0x7ffffffffffffffe ∧
      b.num = 0x7ffffffffffffffe ∧ b.den = 0x7fffffffffffffff ∧ a < b ∧
      a.sub b = .error .overflow ∧ b.sub a = .error .overflow) ∧
    ∃ left right v : Valued, ∃ c : Fraction, left.value.sub right.value = .ok c ∧ c.num = -1 ∧
      left.value < right.value ∧ Valued.combine .minus left right = some v ∧ 0 ≤ v.value.num ∧
      v.expr = .binary .minus right.expr left.expr := by
  obtain ⟨horder, -, hsign, hcombine⟩ := order_exact
  refine ⟨?_, ?_⟩
  · let a : Fraction :=
      ⟨mkRat 0x7ffffffffffffffd 0x7ffffffffffffffe, by decide +kernel, by decide +kernel⟩
    let b : Fraction :=
      ⟨mkRat 0x7ffffffffffffffe 0x7fffffffffffffff, by decide +kernel, by decide +kernel⟩
    have hlt : a < b := (horder a b).2.1.mpr (by decide +kernel)
    exact ⟨a, b, by decide +kernel, by decide +kernel, by decide +kernel, by decide +kernel, hlt,
      by decide +kernel, by decide +kernel⟩
  · let left : Valued := .number ⟨1 / 3, by decide +kernel, by decide +kernel⟩
    let right : Valued := .number ⟨1 / 2, by decide +kernel, by decide +kernel⟩
    let c : Fraction := ⟨-1 / 6, by decide +kernel, by decide +kernel⟩
    let v : Valued := ⟨.binary .minus right.expr left.expr,
      ⟨1 / 6, by decide +kernel, by decide +kernel⟩⟩
    have hc : left.value.sub right.value = .ok c := by decide +kernel
    have hv : Valued.combine .minus left right = some v := by decide +kernel
    have hlt : left.value < right.value := (hsign _ _ _ hc).1.mp (by decide +kernel)
    obtain ⟨-, -, -, -, -, -, hnonneg⟩ := hcombine left right v hv
    exact ⟨left, right, v, c, hc, by decide +kernel, hlt, hv, hnonneg, rfl⟩

end FractionDrill
