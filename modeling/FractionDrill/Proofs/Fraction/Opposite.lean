import FractionDrill.Proofs.Fraction.Checked

/-!
# Sums and differences of opposite numbers

The parts of fractions have a range that is symmetric about zero, but the words
through which a sum or a difference is computed have not: the least word has no
opposite. Where none of those words is the least one, exchanging the operands of a
difference, or the signs of both operands of a sum, changes the sign of the outcome
and nothing else. Where one of them is, the result may still be reduced to a
fraction, and then the operation with the opposite sign overflows. Two results that
are both given are always opposite.
-/
namespace FractionDrill.Fraction

/-- One outcome has the opposite result of the other, or both overflow. -/
structure Opposed (first second : Except Fault Fraction) : Prop where
  ok_iff : ∀ r : Fraction, first = .ok r ↔ second = .ok r.neg
  overflow_iff : first = .error .overflow ↔ second = .error .overflow

/-- The difference is taken, and before it is reduced its numerator is the least word. -/
def IsLeastDifference (a b : Fraction) : Prop :=
  JoinFits (· - ·) a b ∧ scaledNum a b - scaledNum b a = leastWord

/-- The sum is taken, and over the common denominator one of its operands, or the sum before it
is reduced, has the least word as its numerator. -/
def MeetsLeastInSum (a b : Fraction) : Prop :=
  JoinFits (· + ·) a b ∧
    (scaledNum a b = leastWord ∨ scaledNum b a = leastWord ∨
      scaledNum a b + scaledNum b a = leastWord)

instance (join : Int → Int → Int) (a b : Fraction) : Decidable (JoinFits join a b) :=
  inferInstanceAs (Decidable (_ ∧ _ ∧ _ ∧ _ ∧ ¬_ = _))

instance (a b : Fraction) : Decidable (IsLeastDifference a b) :=
  inferInstanceAs (Decidable (_ ∧ _ = _))

instance (a b : Fraction) : Decidable (MeetsLeastInSum a b) :=
  inferInstanceAs (Decidable (_ ∧ (_ = _ ∨ _ = _ ∨ _ = _)))

theorem num_neg (a : Fraction) : a.neg.num = -a.num := Rat.neg_num a.value

theorem den_neg (a : Fraction) : a.neg.den = a.den := Rat.neg_den a.value

theorem neg_neg_eq (a : Fraction) : a.neg.neg = a := ext_value (neg_neg a.value)

theorem commonDen_neg (a b : Fraction) : commonDen a.neg b.neg = commonDen a b := by
  rw [commonDen, commonDen, den_neg, den_neg]

theorem scaledNum_neg (a b : Fraction) : scaledNum a.neg b.neg = -scaledNum a b := by
  rw [scaledNum, scaledNum, commonDen_neg, den_neg, num_neg, mul_neg]

theorem isWord_neg_iff {z : Int} (h : IsWord z) : IsWord (-z) ↔ z ≠ leastWord := by
  unfold IsWord at h ⊢
  unfold leastWord
  omega

theorem fits_mkRat_neg (z : Int) (l : Nat) : Fits (mkRat (-z) l) ↔ Fits (mkRat z l) := by
  unfold Fits
  rw [← Rat.neg_mkRat, Rat.neg_num, Rat.neg_den, Int.natAbs_neg]

/-- A difference that is taken is taken the other way round as well, unless that needs the
opposite of the least word. -/
theorem joinFits_sub_swap_iff {a b : Fraction} (h : JoinFits (· - ·) a b) :
    JoinFits (· - ·) b a ↔ scaledNum a b - scaledNum b a ≠ leastWord := by
  rw [joinFits_iff] at h ⊢
  obtain ⟨⟨hl, hx, hy, hz⟩, hfits⟩ := h
  have hswap : scaledNum b a - scaledNum a b = -(scaledNum a b - scaledNum b a) :=
    (neg_sub _ _).symm
  rw [commonDen_comm b a, hswap, fits_mkRat_neg, isWord_neg_iff hz]
  simp only [hl, hx, hy, hfits, true_and, and_true]

/-- A sum that is taken is taken of the opposite operands as well, unless that needs the opposite
of the least word. -/
theorem joinFits_add_neg_iff {a b : Fraction} (h : JoinFits (· + ·) a b) :
    JoinFits (· + ·) a.neg b.neg ↔
      ¬(scaledNum a b = leastWord ∨ scaledNum b a = leastWord ∨
        scaledNum a b + scaledNum b a = leastWord) := by
  rw [joinFits_iff] at h ⊢
  obtain ⟨⟨hl, hx, hy, hz⟩, hfits⟩ := h
  have hsum : -scaledNum a b + -scaledNum b a = -(scaledNum a b + scaledNum b a) :=
    (neg_add _ _).symm
  rw [commonDen_neg, scaledNum_neg, scaledNum_neg, hsum, fits_mkRat_neg, isWord_neg_iff hx,
    isWord_neg_iff hy, isWord_neg_iff hz, not_or, not_or]
  simp only [hl, hfits, true_and, and_true]

namespace Checked
variable {outcome first second : Except Fault Fraction} {fits p q : Prop} {exact : Rat}

theorem overflow_iff (h : Checked outcome fits exact) :
    outcome = .error .overflow ↔ ¬fits := by
  rw [← h.ok_iff]
  cases houtcome : outcome with
  | ok c => exact iff_of_false nofun (not_not.mpr ⟨c, rfl⟩)
  | error fault =>
    rw [h.fault_eq fault houtcome]
    exact iff_of_true rfl nofun

/-- The exact values of opposite operations are opposite, so of two results each is that of the
other with the opposite sign. -/
theorem eq_neg {r s : Fraction} (hfirst : Checked first p exact)
    (hsecond : Checked second q (-exact)) (hr : first = .ok r) (hs : second = .ok s) :
    s = r.neg := by
  apply ext_value
  rw [hsecond.value_eq s hs, ← hfirst.value_eq r hr]
  rfl

/-- Opposite operations have opposed outcomes where both give a result or neither does. -/
theorem opposed_iff (hfirst : Checked first p exact) (hsecond : Checked second q (-exact)) :
    Opposed first second ↔ (p ↔ q) := by
  constructor
  · intro h
    have hoverflow := h.overflow_iff
    rwa [hfirst.overflow_iff, hsecond.overflow_iff, not_iff_not] at hoverflow
  · intro h
    refine ⟨?_, ?_⟩
    · intro r
      constructor
      · intro hr
        obtain ⟨s, hs⟩ := hsecond.ok_iff.mpr (h.mp (hfirst.ok_iff.mp ⟨r, hr⟩))
        rw [hs, eq_neg hfirst hsecond hr hs]
      · intro hs
        obtain ⟨t, ht⟩ := hfirst.ok_iff.mpr (h.mpr (hsecond.ok_iff.mp ⟨r.neg, hs⟩))
        have hneg : r.neg = t.neg := eq_neg hfirst hsecond ht hs
        rw [ht, ← neg_neg_eq t, ← hneg, neg_neg_eq]
    · rw [hfirst.overflow_iff, hsecond.overflow_iff, not_iff_not]
      exact h

end Checked

theorem checked_sub_swap (a b : Fraction) :
    Checked (b.sub a) (JoinFits (· - ·) b a) (-(a.value - b.value)) := by
  rw [neg_sub]
  exact checked_sub b a

theorem checked_add_neg (a b : Fraction) :
    Checked (a.neg.add b.neg) (JoinFits (· + ·) a.neg b.neg) (-(a.value + b.value)) := by
  rw [neg_add]
  exact checked_add a.neg b.neg

/-- Where each of two conditions implies the other apart from an exception of its own, they agree
where neither exception is met. -/
theorem iff_iff_of_exceptions {p q e f : Prop} (hp : p → (q ↔ ¬e)) (hq : q → (p ↔ ¬f)) :
    (p ↔ q) ↔ ¬(p ∧ e ∨ q ∧ f) := by
  tauto

theorem opposed_sub_iff (a b : Fraction) :
    Opposed (a.sub b) (b.sub a) ↔ ¬(IsLeastDifference a b ∨ IsLeastDifference b a) := by
  rw [(checked_sub a b).opposed_iff (checked_sub_swap a b)]
  exact iff_iff_of_exceptions (fun h => joinFits_sub_swap_iff h) fun h => joinFits_sub_swap_iff h

theorem opposed_add_iff (a b : Fraction) :
    Opposed (a.add b) (a.neg.add b.neg) ↔
      ¬(MeetsLeastInSum a b ∨ MeetsLeastInSum a.neg b.neg) := by
  rw [(checked_add a b).opposed_iff (checked_add_neg a b)]
  refine iff_iff_of_exceptions (fun h => joinFits_add_neg_iff h) fun h => ?_
  have hback := joinFits_add_neg_iff h
  rwa [neg_neg_eq, neg_neg_eq] at hback

/-- Taking a difference the other way round, or a sum of the opposite operands, gives the opposite
outcome, except where a numerator on the way is the least word. There the one operation gives a
result and the other overflows; results that are both given are opposite. -/
theorem opposed_unless_least (a b : Fraction) :
    (Opposed (a.sub b) (b.sub a) ↔ ¬(IsLeastDifference a b ∨ IsLeastDifference b a)) ∧
    (Opposed (a.add b) (a.neg.add b.neg) ↔
      ¬(MeetsLeastInSum a b ∨ MeetsLeastInSum a.neg b.neg)) ∧
    (IsLeastDifference a b → (∃ r, a.sub b = .ok r) ∧ b.sub a = .error .overflow) ∧
    (MeetsLeastInSum a b → (∃ r, a.add b = .ok r) ∧ a.neg.add b.neg = .error .overflow) ∧
    (∀ r s, a.sub b = .ok r → b.sub a = .ok s → s = r.neg) ∧
    (∀ r s, a.add b = .ok r → a.neg.add b.neg = .ok s → s = r.neg) := by
  refine ⟨opposed_sub_iff a b, opposed_add_iff a b, ?_, ?_, ?_, ?_⟩
  · rintro ⟨hfits, hleast⟩
    refine ⟨(checked_sub a b).ok_iff.mpr hfits, (checked_sub b a).overflow_iff.mpr ?_⟩
    rw [joinFits_sub_swap_iff hfits, not_not]
    exact hleast
  · rintro ⟨hfits, hleast⟩
    refine ⟨(checked_add a b).ok_iff.mpr hfits, (checked_add_neg a b).overflow_iff.mpr ?_⟩
    rw [joinFits_add_neg_iff hfits, not_not]
    exact hleast
  · intro r s
    exact (checked_sub a b).eq_neg (checked_sub_swap a b)
  · intro r s
    exact (checked_add a b).eq_neg (checked_add_neg a b)

/-- The largest fraction and zero; two pairs that meet the least word, as the difference before it
is reduced and as an operand over the common denominator; and a pair that only just does not. -/
theorem opposed_unless_least_at_limits :
    (∃ a b : Fraction, a.parts = ⟨0x7fffffffffffffff, 1⟩ ∧ b.parts = ⟨0, 1⟩ ∧
      Opposed (a.sub b) (b.sub a) ∧ Opposed (a.add b) (a.neg.add b.neg)) ∧
    (∃ a b : Fraction, a.parts = ⟨-0x7fffffffffffffff, 4⟩ ∧ b.parts = ⟨1, 4⟩ ∧
      IsLeastDifference a b ∧ (∃ r, a.sub b = .ok r) ∧ b.sub a = .error .overflow) ∧
    (∃ a b : Fraction, a.parts = ⟨-0x4000000000000000, 1⟩ ∧ b.parts = ⟨1, 2⟩ ∧
      MeetsLeastInSum a b ∧ (∃ r, a.add b = .ok r) ∧ a.neg.add b.neg = .error .overflow) ∧
    ∃ a b r s : Fraction, a.parts = ⟨-0x7fffffffffffffff, 2⟩ ∧ b.parts = ⟨-1, 2⟩ ∧
      r.parts = ⟨-0x3fffffffffffffff, 1⟩ ∧ (a.sub b = .ok r ∧ b.sub a = .ok s ∧ s = r.neg) ∧
      (b.add b = .ok (neg one) ∧ b.neg.add b.neg = .ok one ∧ one = (neg one).neg) := by
  refine ⟨?_, ?_, ?_, ?_⟩
  · let a : Fraction := ⟨0x7fffffffffffffff, by decide +kernel, by decide +kernel⟩
    obtain ⟨hsub, hadd, -⟩ := opposed_unless_least a zero
    exact ⟨a, zero, by decide +kernel, by decide +kernel, hsub.mpr (by decide +kernel),
      hadd.mpr (by decide +kernel)⟩
  · let a : Fraction := ⟨mkRat (-0x7fffffffffffffff) 4, by decide +kernel, by decide +kernel⟩
    let b : Fraction := ⟨mkRat 1 4, by decide +kernel, by decide +kernel⟩
    have hleast : IsLeastDifference a b := by decide +kernel
    obtain ⟨-, -, htaken, -⟩ := opposed_unless_least a b
    exact ⟨a, b, by decide +kernel, by decide +kernel, hleast, htaken hleast⟩
  · let a : Fraction := ⟨-0x4000000000000000, by decide +kernel, by decide +kernel⟩
    let b : Fraction := ⟨mkRat 1 2, by decide +kernel, by decide +kernel⟩
    have hleast : MeetsLeastInSum a b := by decide +kernel
    obtain ⟨-, -, -, htaken, -⟩ := opposed_unless_least a b
    exact ⟨a, b, by decide +kernel, by decide +kernel, hleast, htaken hleast⟩
  · let a : Fraction := ⟨mkRat (-0x7fffffffffffffff) 2, by decide +kernel, by decide +kernel⟩
    let b : Fraction := ⟨mkRat (-1) 2, by decide +kernel, by decide +kernel⟩
    let r : Fraction := ⟨-0x3fffffffffffffff, by decide +kernel, by decide +kernel⟩
    let s : Fraction := ⟨0x3fffffffffffffff, by decide +kernel, by decide +kernel⟩
    have hr : a.sub b = .ok r := by decide +kernel
    have hs : b.sub a = .ok s := by decide +kernel
    have hsum : b.add b = .ok (neg one) := by decide +kernel
    have hopposite : b.neg.add b.neg = .ok one := by decide +kernel
    obtain ⟨-, -, -, -, hsub, -⟩ := opposed_unless_least a b
    obtain ⟨-, -, -, -, -, hadd⟩ := opposed_unless_least b b
    exact ⟨a, b, r, s, by decide +kernel, by decide +kernel, by decide +kernel,
      ⟨hr, hs, hsub r s hr hs⟩, hsum, hopposite, hadd (neg one) one hsum hopposite⟩

/-- The outcomes are not always opposed: the difference of these two, and the sum of the first and
the opposite of the second, have the least word as their numerator before they are reduced. -/
theorem not_opposed_at_least_word :
    ∃ a b : Fraction, a.parts = ⟨-0x7fffffffffffffff, 2⟩ ∧ b.parts = ⟨1, 2⟩ ∧
      (a.sub b).map parts = .ok ⟨-0x4000000000000000, 1⟩ ∧ b.sub a = .error .overflow ∧
      ¬Opposed (a.sub b) (b.sub a) ∧
      (a.add b.neg).map parts = .ok ⟨-0x4000000000000000, 1⟩ ∧
      a.neg.add b.neg.neg = .error .overflow ∧ ¬Opposed (a.add b.neg) (a.neg.add b.neg.neg) := by
  let a : Fraction := ⟨mkRat (-0x7fffffffffffffff) 2, by decide +kernel, by decide +kernel⟩
  let b : Fraction := ⟨mkRat 1 2, by decide +kernel, by decide +kernel⟩
  have hsub : a.sub b ≠ .error .overflow := by decide +kernel
  have hswap : b.sub a = .error .overflow := by decide +kernel
  have hadd : a.add b.neg ≠ .error .overflow := by decide +kernel
  have hneg : a.neg.add b.neg.neg = .error .overflow := by decide +kernel
  refine ⟨a, b, by decide +kernel, by decide +kernel, by decide +kernel, hswap, ?_,
    by decide +kernel, hneg, ?_⟩
  · intro h
    exact hsub (h.overflow_iff.mpr hswap)
  · intro h
    exact hadd (h.overflow_iff.mpr hneg)

end FractionDrill.Fraction
