import FractionDrill.Proofs.Fraction.Lowest
import FractionDrill.Expr.Basic
import Mathlib.Tactic.Ring

/-!
# Checked arithmetic against the rational numbers

Every operation that gives a fraction gives the exact rational result, and the
order of fractions is the order of their values. An operation that gives nothing
reports an overflow or a division by zero; no other fault comes out of
arithmetic, on fractions as on whole expressions.
-/
namespace FractionDrill

/-- The faults of arithmetic alone. -/
def Fault.IsArithmetic (fault : Fault) : Prop := fault = .divisionByZero ∨ fault = .overflow

namespace Fraction

theorem commonDen_comm (a b : Fraction) : commonDen a b = commonDen b a := Nat.lcm_comm _ _

/-- A numerator over the common denominator stands for the same number. -/
theorem mkRat_scaledNum (a b : Fraction) : mkRat (scaledNum a b) (commonDen a b) = a.value := by
  have hden : commonDen a b = commonDen a b / a.den * a.den :=
    (Nat.div_mul_cancel (Nat.dvd_lcm_left _ _)).symm
  have hfactor : commonDen a b / a.den ≠ 0 := by
    intro hzero
    rw [hzero, Nat.zero_mul] at hden
    exact commonDen_ne_zero a b hden
  unfold scaledNum
  rw [hden, Nat.mul_div_cancel _ a.den_pos, Rat.mkRat_mul_left hfactor]
  exact Rat.mkRat_self a.value

theorem mkRat_scaledNum_right (a b : Fraction) :
    mkRat (scaledNum b a) (commonDen a b) = b.value := by
  rw [commonDen_comm]
  exact mkRat_scaledNum b a

theorem mkRat_add_scaledNum (a b : Fraction) :
    mkRat (scaledNum a b + scaledNum b a) (commonDen a b) = a.value + b.value := by
  calc mkRat (scaledNum a b + scaledNum b a) (commonDen a b)
      = mkRat (scaledNum a b) (commonDen a b) + mkRat (scaledNum b a) (commonDen a b) := by
        simp only [Rat.mkRat_eq_div, Rat.intCast_add, add_div]
    _ = a.value + b.value := by rw [mkRat_scaledNum, mkRat_scaledNum_right]

theorem mkRat_sub_scaledNum (a b : Fraction) :
    mkRat (scaledNum a b - scaledNum b a) (commonDen a b) = a.value - b.value := by
  calc mkRat (scaledNum a b - scaledNum b a) (commonDen a b)
      = mkRat (scaledNum a b) (commonDen a b) - mkRat (scaledNum b a) (commonDen a b) := by
        simp only [Rat.mkRat_eq_div, Rat.intCast_sub, sub_div]
    _ = a.value - b.value := by rw [mkRat_scaledNum, mkRat_scaledNum_right]

theorem natAbs_num_divInt_le (n : Int) {d : Int} (hd : d ≠ 0) :
    (Rat.divInt n d).num.natAbs ≤ n.natAbs := by
  rcases eq_or_ne n 0 with rfl | hn
  · simp
  · exact Nat.le_of_dvd (Int.natAbs_pos.mpr hn) (Int.natAbs_dvd_natAbs.mpr (Rat.num_dvd n hd))

theorem den_divInt_le (n : Int) {d : Int} (hd : d ≠ 0) : (Rat.divInt n d).den ≤ d.natAbs :=
  Nat.le_of_dvd (Int.natAbs_pos.mpr hd) (Int.natCast_dvd.mp (Rat.den_dvd n d))

theorem value_of_ofParts {n d : Int} {a : Fraction} (h : ofParts n d = .ok a) :
    a.value = Rat.divInt n d := by
  unfold ofParts at h
  split at h
  · cases h
  · split at h
    · cases h
    · exact value_of_ofRat h

theorem value_of_add {a b c : Fraction} (h : a.add b = .ok c) : c.value = a.value + b.value := by
  rw [add, joinNums_eq] at h
  split at h
  · rw [value_of_ofRat h, mkRat_add_scaledNum]
  · cases h

theorem value_of_sub {a b c : Fraction} (h : a.sub b = .ok c) : c.value = a.value - b.value := by
  rw [sub, joinNums_eq] at h
  split at h
  · rw [value_of_ofRat h, mkRat_sub_scaledNum]
  · cases h

theorem value_of_mul {a b c : Fraction} (h : a.mul b = .ok c) : c.value = a.value * b.value := by
  rw [mul_eq_ofRat] at h
  exact value_of_ofRat h

theorem isZero_of_div {a b c : Fraction} (h : a.div b = .ok c) : b.isZero = false := by
  unfold div at h
  split at h
  · cases h
  · exact Bool.eq_false_iff.mpr ‹_›

theorem value_of_div {a b c : Fraction} (h : a.div b = .ok c) : c.value = a.value / b.value := by
  rw [div_eq_ofRat (isZero_of_div h)] at h
  exact value_of_ofRat h

theorem fault_of_ofRat {q : Rat} {fault : Fault} (h : ofRat q = .error fault) :
    fault = .overflow := by
  unfold ofRat at h
  split at h
  · cases h
  · cases h
    rfl

theorem fault_of_joinNums {join : Int → Int → Int} {a b : Fraction} {fault : Fault}
    (h : joinNums join a b = .error fault) : fault = .overflow := by
  rw [joinNums_eq] at h
  split at h
  · exact fault_of_ofRat h
  · cases h
    rfl

theorem fault_of_mul {a b : Fraction} {fault : Fault} (h : a.mul b = .error fault) :
    fault = .overflow := by
  rw [mul_eq_ofRat] at h
  exact fault_of_ofRat h

theorem fault_of_div {a b : Fraction} {fault : Fault} (h : a.div b = .error fault) :
    fault = if b.isZero then .divisionByZero else .overflow := by
  cases hzero : b.isZero with
  | true =>
    rw [div, if_pos hzero] at h
    cases h
    rfl
  | false =>
    rw [div_eq_ofRat hzero] at h
    exact fault_of_ofRat h

theorem fault_of_ofParts {n d : Int} {fault : Fault} (h : ofParts n d = .error fault) :
    fault.IsArithmetic := by
  unfold ofParts at h
  split at h
  · cases h
    exact .inl rfl
  · split at h
    · cases h
      exact .inr rfl
    · exact .inr (fault_of_ofRat h)

end Fraction

namespace Operator

variable {op : Operator} {a b : Fraction} {fault : Fault}

/-- An operation overflows, or it divides by zero. -/
theorem overflow_or_zero_of_apply (h : op.apply a b = .error fault) :
    fault = .overflow ∨ fault = .divisionByZero ∧ op = .divide ∧ b.value = 0 := by
  cases op with
  | plus => exact .inl (Fraction.fault_of_joinNums h)
  | minus => exact .inl (Fraction.fault_of_joinNums h)
  | times => exact .inl (Fraction.fault_of_mul h)
  | divide =>
    have hfault := Fraction.fault_of_div h
    split at hfault
    · exact .inr ⟨hfault, rfl, Fraction.isZero_iff_value.mp ‹_›⟩
    · exact .inl hfault

theorem fault_of_apply (h : op.apply a b = .error fault) : fault.IsArithmetic :=
  (overflow_or_zero_of_apply h).symm.imp_left And.left

/-- Only a division by zero is reported as one. -/
theorem zero_of_apply (h : op.apply a b = .error .divisionByZero) :
    op = .divide ∧ b.value = 0 :=
  ((overflow_or_zero_of_apply h).resolve_left nofun).2

/-- No operation but division is refused for another reason than an overflow. -/
theorem overflow_of_apply (hop : op ≠ .divide) (h : op.apply a b = .error fault) :
    fault = .overflow :=
  (overflow_or_zero_of_apply h).resolve_right fun hzero => hop hzero.2.1

end Operator

/-- The value of an operation is that of its operator on the two operand values. -/
theorem Expr.value_binary_eq_ok {op : Operator} {left right : Expr} {v : Fraction} :
    (Expr.binary op left right).value = .ok v ↔
      ∃ a b, left.value = .ok a ∧ right.value = .ok b ∧ op.apply a b = .ok v := by
  simp only [Expr.value, Fault.bind_eq_ok_iff]
  constructor
  · rintro ⟨a, ha, b, hb, hv⟩
    exact ⟨a, b, ha, hb, hv⟩
  · rintro ⟨a, b, ha, hb, hv⟩
    exact ⟨a, ha, b, hb, hv⟩

theorem Expr.fault_of_value {e : Expr} {fault : Fault} (h : e.value = .error fault) :
    fault.IsArithmetic := by
  induction e with
  | number q => cases h
  | binary op left right ihl ihr =>
    simp only [Expr.value, Fault.bind_eq_error_iff] at h
    rcases h with h | ⟨a, ha, h | ⟨b, hb, h⟩⟩
    · exact ihl h
    · exact ihr h
    · exact Operator.fault_of_apply h

end FractionDrill
