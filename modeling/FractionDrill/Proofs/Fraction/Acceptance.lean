import FractionDrill.Proofs.Fraction.Checked

/-!
# What the reader of numbers accepts

Only the text of a literal is read as a number. Of a literal the runs of digits are
looked at first, then the number below the slash, and last the value. A whole number
or a quotient whose runs fit has a value that fits. The sum in a mixed number may have
a numerator that does not, and nothing else makes it overflow: over the denominator of
its proper part the sum is already in lowest terms.
-/
namespace FractionDrill
open Fraction

namespace Literal

/-- A minus sign in front of a literal is the sign of all of it, also of a whole part zero. -/
theorem head?_text (l : Literal) : l.text.head? = some '-' ↔ l.negative = true :=
  head?_sign_append l.negative l.shape.text_eq_cons

namespace Shape

/-- Whether a whole part stands before a quotient. -/
def IsMixed : Shape → Prop
  | whole _ => False
  | quotient _ _ => False
  | mixed _ _ _ => True

theorem den_size_le {p : Shape} (hfits : p.Fits) (hden : p.denominator ≠ 0) :
    p.size.den ≤ maxPart := by
  cases p with
  | whole n =>
    rw [size, Rat.den_natCast]
    decide
  | quotient top bottom =>
    have hbottom : bottom.value ≤ maxPart := hfits bottom (by simp [numerals])
    exact (den_div_le top.value hden).trans hbottom
  | mixed w top bottom =>
    have hbottom : bottom.value ≤ maxPart := hfits bottom (by simp [numerals])
    rw [size, Rat.natCast_add_den]
    exact (den_div_le top.value hden).trans hbottom

theorem natAbs_num_size_le {p : Shape} (hfits : p.Fits) (hden : p.denominator ≠ 0)
    (hmixed : ¬p.IsMixed) : p.size.num.natAbs ≤ maxPart := by
  cases p with
  | whole n =>
    rw [size, Rat.num_natCast, Int.natAbs_natCast]
    exact hfits n (by simp [numerals])
  | quotient top bottom =>
    have htop : top.value ≤ maxPart := hfits top (by simp [numerals])
    exact (natAbs_num_div_le top.value hden).trans htop
  | mixed w top bottom => exact absurd trivial hmixed

end Shape

theorem natAbs_num_value (l : Literal) : l.value.num.natAbs = l.shape.size.num.natAbs := by
  unfold value
  split
  · rw [Rat.neg_num, Int.natAbs_neg]
  · rfl

theorem den_value (l : Literal) : l.value.den = l.shape.size.den := by
  unfold value
  split
  · rw [Rat.neg_den]
  · rfl

/-- The outcome that a literal must have: the first of its obstacles, or its exact value. -/
structure Determines (l : Literal) (outcome : Except Fault Fraction) : Prop where
  overflow_of_numeral : (∃ n ∈ l.shape.numerals, maxPart < n.value) → outcome = .error .overflow
  divisionByZero : l.shape.Fits → l.shape.denominator = 0 → outcome = .error .divisionByZero
  exact_of_not_isMixed : l.shape.Fits → l.shape.denominator ≠ 0 → ¬l.shape.IsMixed →
    ∃ a, outcome = .ok a ∧ a.value = l.value
  exact_of_isMixed : l.shape.Fits → l.shape.denominator ≠ 0 → l.shape.IsMixed →
    l.value.num.natAbs ≤ maxPart → ∃ a, outcome = .ok a ∧ a.value = l.value
  overflow_of_isMixed : l.shape.Fits → l.shape.denominator ≠ 0 → l.shape.IsMixed →
    maxPart < l.value.num.natAbs → outcome = .error .overflow

/-- Where the runs of digits fit, only the numerator of the value decides. -/
theorem exists_of_outcome {l : Literal} (hfits : l.shape.Fits) (hden : l.shape.denominator ≠ 0)
    (hnum : l.value.num.natAbs ≤ maxPart) : ∃ a, l.outcome = .ok a ∧ a.value = l.value := by
  have hvalue : Fraction.Fits l.value := by
    refine ⟨hnum, ?_⟩
    rw [den_value]
    exact l.shape.den_size_le hfits hden
  obtain ⟨a, ha⟩ := (checked_ofRat l.value).ok_iff.mpr hvalue
  refine ⟨a, ?_, value_of_ofRat ha⟩
  rw [outcome_of_fits hfits, if_neg hden, ha]

theorem determines_outcome (l : Literal) : l.Determines l.outcome where
  overflow_of_numeral h := by
    obtain ⟨n, hn, hlarge⟩ := h
    exact outcome_of_overflow hn hlarge
  divisionByZero hfits hden := by rw [outcome_of_fits hfits, if_pos hden]
  exact_of_not_isMixed hfits hden hmixed := by
    refine exists_of_outcome hfits hden ?_
    rw [natAbs_num_value]
    exact l.shape.natAbs_num_size_le hfits hden hmixed
  exact_of_isMixed hfits hden _ hnum := exists_of_outcome hfits hden hnum
  overflow_of_isMixed hfits hden _ hlarge := by
    rw [outcome_of_fits hfits, if_neg hden]
    cases h : ofRat l.value with
    | error fault => rw [fault_of_ofRat h]
    | ok a =>
      have hvalue : Fraction.Fits l.value := (checked_ofRat l.value).ok_iff.mp ⟨a, h⟩
      exact absurd hvalue.1 (Nat.not_le.mpr hlarge)

end Literal

/-- Only a literal is read as a number, and every literal has the outcome that its runs of digits,
its denominator and its value determine. -/
theorem Fraction.read_determined (s : Text) :
    (∀ a, read s = .ok a → ∃ l : Literal, l.text = s) ∧
    ∀ l : Literal, l.text = s →
      (l.value = if s.head? = some '-' then -l.shape.size else l.shape.size) ∧
        l.Determines (read s) := by
  constructor
  · intro a h
    exact exists_literal_of_read h
  · intro l hl
    rw [← hl, read_text]
    refine ⟨?_, l.determines_outcome⟩
    simp only [l.head?_text]
    rfl

/-- The sign of a whole part zero, a sum whose numerator is too large, and a run of digits that is
too large above a denominator zero. -/
theorem Fraction.read_determined_at_limits :
    (∃ (l : Literal) (a : Fraction), l.text = "-0'2/06".toList ∧ read "-0'2/06".toList = .ok a ∧
      a.value = l.value ∧ l.value = -1 / 3) ∧
    (∃ l : Literal, l.text = "-4611686018427387904'1/2".toList ∧
      l.value.num = -9223372036854775809 ∧
      read "-4611686018427387904'1/2".toList = .error .overflow) ∧
    (∃ l : Literal, l.text = "9223372036854775808/0".toList ∧
      read "9223372036854775808/0".toList = .error .overflow) ∧
    ∃ l : Literal, l.text = "1/0".toList ∧ read "1/0".toList = .error .divisionByZero := by
  refine ⟨?_, ?_, ?_, ?_⟩
  · let l : Literal := ⟨true, .mixed ⟨"0".toList, rfl⟩ ⟨"2".toList, rfl⟩ ⟨"06".toList, rfl⟩⟩
    obtain ⟨-, hdetermines⟩ := (read_determined "-0'2/06".toList).2 l rfl
    obtain ⟨a, ha, hvalue⟩ := hdetermines.exact_of_isMixed (by decide) (by decide) trivial
      (by decide +kernel)
    exact ⟨l, a, rfl, ha, hvalue, by decide +kernel⟩
  · let l : Literal :=
      ⟨true, .mixed ⟨"4611686018427387904".toList, rfl⟩ ⟨"1".toList, rfl⟩ ⟨"2".toList, rfl⟩⟩
    obtain ⟨-, hdetermines⟩ := (read_determined "-4611686018427387904'1/2".toList).2 l rfl
    exact ⟨l, rfl, by decide +kernel, hdetermines.overflow_of_isMixed (by decide +kernel)
      (by decide) trivial (by decide +kernel)⟩
  · let l : Literal := ⟨false, .quotient ⟨"9223372036854775808".toList, rfl⟩ ⟨"0".toList, rfl⟩⟩
    obtain ⟨-, hdetermines⟩ := (read_determined "9223372036854775808/0".toList).2 l rfl
    exact ⟨l, rfl, hdetermines.overflow_of_numeral ⟨_, List.mem_cons_self, by decide +kernel⟩⟩
  · let l : Literal := ⟨false, .quotient ⟨"1".toList, rfl⟩ ⟨"0".toList, rfl⟩⟩
    obtain ⟨-, hdetermines⟩ := (read_determined "1/0".toList).2 l rfl
    exact ⟨l, rfl, hdetermines.divisionByZero (by decide) (by decide)⟩

end FractionDrill
