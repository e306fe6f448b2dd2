import FractionDrill.Fraction.Arithmetic
import Mathlib.Algebra.Order.Field.Rat
import Mathlib.Data.Rat.Lemmas
import Mathlib.RingTheory.Coprime.Lemmas

/-!
# Products and quotients through words

What two fractions have in common crosswise is cancelled before they are multiplied,
so the two products are in lowest terms already. A product that is no word is
therefore a part of the exact result that does not fit, and cancelling, checking and
reducing come to the exact result, refused where it is too large. The same holds of
a quotient, whichever of its shorter ways is taken, and of the move of its sign.
-/
namespace FractionDrill

namespace Parts

theorem lowest_eq (n : Int) {d : Int} (hd : d ≠ 0) :
    lowest n d = ⟨(Rat.divInt n d).num, (Rat.divInt n d).den⟩ := by
  have hn : (n.gcd d : Int) ∣ n := Int.gcd_dvd_left n d
  have hdvd : (n.gcd d : Int) ∣ d := Int.gcd_dvd_right n d
  have hden : ((d.natAbs / n.gcd d : Nat) : Int) = (d.natAbs : Int) / n.gcd d := Int.natCast_ediv ..
  rw [Rat.num_divInt, Rat.den_divInt, if_neg hd, Int.gcd_comm d n, hden]
  unfold lowest
  rcases Int.lt_or_gt_of_ne hd with hneg | hpos
  · rw [if_pos hneg, Int.sign_eq_neg_one_of_neg hneg,
      Int.ofNat_natAbs_of_nonpos (Int.le_of_lt hneg), Int.neg_one_mul, Int.neg_ediv_of_dvd hn,
      Int.neg_ediv_of_dvd hdvd]
  · rw [if_neg (Int.not_lt.mpr (Int.le_of_lt hpos)), Int.sign_eq_one_of_pos hpos,
      Int.natAbs_of_nonneg (Int.le_of_lt hpos), Int.one_mul]

/-- Without a common divisor, only the signs change. -/
theorem natAbs_divInt {n d : Int} (hd : d ≠ 0) (h : n.gcd d = 1) :
    (Rat.divInt n d).num.natAbs = n.natAbs ∧ (Rat.divInt n d).den = d.natAbs := by
  have hlow := lowest_eq n hd
  unfold lowest at hlow
  rw [h, Int.natCast_one, Int.ediv_one, Int.ediv_one] at hlow
  split at hlow
  · injection hlow with hnum hden
    omega
  · injection hlow with hnum hden
    omega

theorem word_bind {α : Type} (z : Int) (f : Int → Except Fault α) :
    word z >>= f = if Fraction.IsWord z then f z else .error .overflow := by
  unfold word
  split <;> rfl

/-- The two checks are one. -/
theorem inWords_bind {α : Type} (p : Parts) (f : Parts → Except Fault α) :
    p.inWords >>= f =
      if Fraction.IsWord p.num ∧ Fraction.IsWord p.den then f p else .error .overflow := by
  simp only [inWords, word_bind]
  split_ifs <;> first | rfl | tauto

variable {p q : Parts}

theorem ediv_ne_zero {m n : Int} (h : m ∣ n) (hn : n ≠ 0) : n / m ≠ 0 :=
  fun hzero => hn (Int.eq_zero_of_ediv_eq_zero h hzero)

theorem den_crossProduct_ne_zero (hp : p.den ≠ 0) (hq : q.den ≠ 0) :
    (p.crossProduct q).den ≠ 0 :=
  Int.mul_ne_zero (ediv_ne_zero (Int.gcd_dvd_left ..) hp) (ediv_ne_zero (Int.gcd_dvd_right ..) hq)

/-- The product of two pairs in lowest terms is in lowest terms. -/
theorem gcd_crossProduct (hp : p.num.gcd p.den = 1) (hq : q.num.gcd q.den = 1)
    (hpden : p.den ≠ 0) (hqden : q.den ≠ 0) :
    (p.crossProduct q).num.gcd (p.crossProduct q).den = 1 := by
  have hg : 0 < p.num.gcd q.den := Int.gcd_pos_of_ne_zero_right _ hqden
  have hh : 0 < p.den.gcd q.num := Int.gcd_pos_of_ne_zero_left _ hpden
  -- own parts have nothing in common, and the others nothing any more
  have hpp : IsCoprime (p.num / p.num.gcd q.den) (p.den / p.den.gcd q.num) :=
    (Int.isCoprime_iff_gcd_eq_one.mpr hp).mono (Int.ediv_dvd_of_dvd (Int.gcd_dvd_left ..))
      (Int.ediv_dvd_of_dvd (Int.gcd_dvd_left ..))
  have hqq : IsCoprime (q.num / p.den.gcd q.num) (q.den / p.num.gcd q.den) :=
    (Int.isCoprime_iff_gcd_eq_one.mpr hq).mono (Int.ediv_dvd_of_dvd (Int.gcd_dvd_right ..))
      (Int.ediv_dvd_of_dvd (Int.gcd_dvd_right ..))
  have hpq : IsCoprime (p.num / p.num.gcd q.den) (q.den / p.num.gcd q.den) :=
    Int.isCoprime_iff_gcd_eq_one.mpr (Int.gcd_div_gcd_div_gcd hg)
  have hqp : IsCoprime (p.den / p.den.gcd q.num) (q.num / p.den.gcd q.num) :=
    Int.isCoprime_iff_gcd_eq_one.mpr (Int.gcd_div_gcd_div_gcd hh)
  exact Int.isCoprime_iff_gcd_eq_one.mp
    ((hpp.mul_right hpq).mul_left (hqp.symm.mul_right hqq))

theorem divInt_crossProduct (hpden : p.den ≠ 0) (hqden : q.den ≠ 0) :
    Rat.divInt (p.crossProduct q).num (p.crossProduct q).den =
      Rat.divInt (p.num * q.num) (p.den * q.den) := by
  have hg : (p.num.gcd q.den : Int) ≠ 0 :=
    Int.natCast_ne_zero.mpr (Int.gcd_pos_of_ne_zero_right _ hqden).ne'
  have hh : (p.den.gcd q.num : Int) ≠ 0 :=
    Int.natCast_ne_zero.mpr (Int.gcd_pos_of_ne_zero_left _ hpden).ne'
  have hnum : p.num * q.num =
      (p.crossProduct q).num * ((p.num.gcd q.den : Int) * p.den.gcd q.num) := by
    rw [crossProduct, mul_mul_mul_comm, Int.ediv_mul_cancel (Int.gcd_dvd_left ..),
      Int.ediv_mul_cancel (Int.gcd_dvd_right ..)]
  have hden : p.den * q.den =
      (p.crossProduct q).den * ((p.num.gcd q.den : Int) * p.den.gcd q.num) := by
    rw [crossProduct, mul_comm (p.num.gcd q.den : Int), mul_mul_mul_comm,
      Int.ediv_mul_cancel (Int.gcd_dvd_left ..), Int.ediv_mul_cancel (Int.gcd_dvd_right ..)]
  rw [hnum, hden, Rat.divInt_mul_right (Int.mul_ne_zero hg hh)]

end Parts

namespace Fraction

/-- Whether both parts of a number in lowest terms are at most the largest part. -/
def Fits (q : Rat) : Prop := q.num.natAbs ≤ maxPart ∧ q.den ≤ maxPart

theorem ofRat_of_not_fits {q : Rat} (h : ¬Fits q) : ofRat q = .error .overflow := dif_neg h

theorem natAbs_le_maxPart_iff {z : Int} : z.natAbs ≤ maxPart ↔ IsWord z ∧ z ≠ leastWord := by
  unfold maxPart IsWord leastWord
  omega

theorem isWord_of_natAbs_le {z : Int} (h : z.natAbs ≤ maxPart) : IsWord z :=
  (natAbs_le_maxPart_iff.mp h).1

theorem ne_leastWord_of_natAbs_le {z : Int} (h : z.natAbs ≤ maxPart) : z ≠ leastWord :=
  (natAbs_le_maxPart_iff.mp h).2

theorem natAbs_le_of_isWord {z : Int} (h : IsWord z) (hz : 0 ≤ z) : z.natAbs ≤ maxPart := by
  refine natAbs_le_maxPart_iff.mpr ⟨h, ?_⟩
  rintro rfl
  exact absurd hz (by decide)

theorem den_parts_ne_zero (a : Fraction) : a.parts.den ≠ 0 :=
  Int.natCast_ne_zero.mpr a.value.den_nz

theorem gcd_parts (a : Fraction) : a.parts.num.gcd a.parts.den = 1 := a.value.reduced

/-- Reducing, moving the sign and refusing the least word come to the exact quotient of the two
parts, refused where it is too large. -/
theorem ofReduced_eq (n : Int) {d : Int} (hd : d ≠ 0) :
    ofReduced ⟨n, d⟩ = ofRat (Rat.divInt n d) := by
  rw [ofReduced, Parts.lowest_eq n hd, Parts.inWords_bind, Rat.num_divInt_den]
  by_cases hfits : Fits (Rat.divInt n d)
  · have hden : ((Rat.divInt n d).den : Int).natAbs ≤ maxPart := hfits.2
    rw [if_pos ⟨isWord_of_natAbs_le hfits.1, isWord_of_natAbs_le hden⟩,
      if_neg (not_or.mpr ⟨ne_leastWord_of_natAbs_le hfits.1, ne_leastWord_of_natAbs_le hden⟩)]
  · rw [ofRat_of_not_fits hfits]
    split_ifs <;> rfl

/-- Parts in lowest terms of which one is no word stand for a number that does not fit. -/
theorem ofReduced_inWords {p : Parts} (hden : p.den ≠ 0) (h : p.num.gcd p.den = 1) :
    p.inWords >>= ofReduced = ofRat (Rat.divInt p.num p.den) := by
  rw [Parts.inWords_bind]
  split
  · exact ofReduced_eq p.num hden
  · rename_i hwords
    refine (ofRat_of_not_fits fun hfits => hwords ?_).symm
    obtain ⟨hnum, hden⟩ := Parts.natAbs_divInt hden h
    rw [Fits, hnum, hden] at hfits
    exact ⟨isWord_of_natAbs_le hfits.1, isWord_of_natAbs_le hfits.2⟩

theorem commonDen_ne_zero (a b : Fraction) : commonDen a b ≠ 0 :=
  Nat.lcm_ne_zero a.value.den_nz b.value.den_nz

theorem product_bind_ofReduced {p q : Parts} (hp : p.num.gcd p.den = 1) (hq : q.num.gcd q.den = 1)
    (hpden : p.den ≠ 0) (hqden : q.den ≠ 0) :
    p.product q >>= ofReduced = ofRat (Rat.divInt (p.num * q.num) (p.den * q.den)) := by
  rw [Parts.product, ofReduced_inWords (Parts.den_crossProduct_ne_zero hpden hqden)
    (Parts.gcd_crossProduct hp hq hpden hqden), Parts.divInt_crossProduct hpden hqden]

theorem mul_eq_ofRat (a b : Fraction) : a.mul b = ofRat (a.value * b.value) := by
  have hvalue : a.value * b.value =
      Rat.divInt (a.parts.num * b.parts.num) (a.parts.den * b.parts.den) := by
    rw [Rat.mul_eq_mkRat, Rat.mkRat_eq_divInt, Int.natCast_mul]
    rfl
  rw [hvalue]
  exact product_bind_ofReduced a.gcd_parts b.gcd_parts a.den_parts_ne_zero b.den_parts_ne_zero

theorem div_eq_ofRat {a b : Fraction} (h : b.isZero = false) :
    a.div b = ofRat (a.value / b.value) := by
  have hnum : b.parts.num ≠ 0 := beq_eq_false_iff_ne.mp h
  have hvalue : a.value / b.value =
      Rat.divInt (a.parts.num * b.parts.den) (a.parts.den * b.parts.num) := Rat.div_def' ..
  rw [div, if_neg (Bool.eq_false_iff.mp h), hvalue, Parts.quotient]
  split_ifs with hden hnums
  · rw [hden, mul_comm b.parts.den, Rat.divInt_mul_right b.den_parts_ne_zero]
    exact ofReduced_eq _ hnum
  · rw [hnums, mul_comm b.parts.num, Rat.divInt_mul_right hnum]
    exact ofReduced_eq _ a.den_parts_ne_zero
  · have hreciprocal : b.parts.den.gcd b.parts.num = 1 := (Int.gcd_comm ..).trans b.gcd_parts
    exact product_bind_ofReduced a.gcd_parts hreciprocal a.den_parts_ne_zero hnum

/-- The lower part of this quotient is the least word, so its sign cannot move above. -/
example : Parts.quotient ⟨1, 0x100000000⟩ ⟨-0x80000000, 1⟩ = .ok ⟨1, leastWord⟩ ∧
    ofReduced ⟨1, leastWord⟩ = .error .overflow := by
  decide +kernel

/-- What is joined over the common denominator needs words on the way, and then only a result that
fits. -/
theorem joinNums_eq (join : Int → Int → Int) (a b : Fraction) :
    joinNums join a b =
      if IsWord (commonDen a b) ∧ IsWord (scaledNum a b) ∧ IsWord (scaledNum b a) ∧
        IsWord (join (scaledNum a b) (scaledNum b a)) then
        ofRat (mkRat (join (scaledNum a b) (scaledNum b a)) (commonDen a b))
      else .error .overflow := by
  have hne : (commonDen a b : Int) ≠ 0 := Int.natCast_ne_zero.mpr (commonDen_ne_zero a b)
  rw [joinNums, ofReduced_eq _ hne, Rat.mkRat_eq_divInt]

end Fraction
end FractionDrill
