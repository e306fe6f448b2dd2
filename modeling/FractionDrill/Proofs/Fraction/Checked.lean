import FractionDrill.Proofs.Fraction.Parts

/-!
# When checked arithmetic gives a result

A sum or a difference is refused as soon as one of the numbers on the way to it is
no word, also where the result would be small. A product or a quotient is refused
only where the result itself is too large. What is not refused is exact, so the
intermediate words never show in a result.
-/
namespace FractionDrill.Fraction

/-- What a sum or a difference needs: words for the least common denominator, for both
numerators over it and for what joins them, and a reduced form other than the least word. -/
def JoinFits (join : Int → Int → Int) (a b : Fraction) : Prop :=
  let l := a.den.lcm b.den
  let x := (l / a.den : Nat) * a.num
  let y := (l / b.den : Nat) * b.num
  IsWord l ∧ IsWord x ∧ IsWord y ∧ IsWord (join x y) ∧
    (Parts.lowest (join x y) l).num ≠ leastWord

/-- An operation that gives the exact number where it fits, and overflows elsewhere. -/
structure Checked (outcome : Except Fault Fraction) (fits : Prop) (exact : Rat) : Prop where
  ok_iff : (∃ c, outcome = .ok c) ↔ fits
  value_eq : ∀ c, outcome = .ok c → c.value = exact
  fault_eq : ∀ fault, outcome = .error fault → fault = .overflow

theorem checked_ofRat (q : Rat) : Checked (ofRat q) (Fits q) q where
  ok_iff := by
    unfold ofRat
    split
    · exact iff_of_true ⟨_, rfl⟩ ‹_›
    · refine iff_of_false ?_ ‹_›
      rintro ⟨c, hc⟩
      cases hc
  value_eq _ := value_of_ofRat
  fault_eq _ := fault_of_ofRat

theorem isWord_ediv {z : Int} {g : Nat} (hg : 0 < g) (hz : IsWord z) : IsWord (z / g) := by
  have hge : (1 : Int) ≤ g := by omega
  constructor
  · apply Int.le_ediv_of_mul_le (by omega)
    have hleast := hz.1
    omega
  · rcases Int.lt_or_le z 0 with hneg | hnonneg
    · have := Int.ediv_neg_of_neg_of_pos hneg (show (0 : Int) < g by omega)
      omega
    · exact (Int.ediv_le_self _ hnonneg).trans hz.2

/-- A reduced numerator is a word where the numerator was, so only the least word is refused. -/
theorem fits_mkRat_iff {z : Int} {l : Nat} (hl : l ≠ 0) (hword : IsWord l) (hz : IsWord z) :
    Fits (mkRat z l) ↔ (Parts.lowest z l).num ≠ leastWord := by
  have hcast : (l : Int) ≠ 0 := Int.natCast_ne_zero.mpr hl
  have hden : (mkRat z l).den ≤ maxPart :=
    (den_divInt_le z hcast).trans (natAbs_le_of_isWord hword (Int.natCast_nonneg l))
  have hnum : (mkRat z l).num = (Parts.lowest z l).num := by
    rw [Parts.lowest_eq z hcast, Rat.mkRat_eq_divInt]
  have hreduced : IsWord (Parts.lowest z l).num := by
    rw [Parts.lowest, if_neg (Int.not_lt.mpr (Int.natCast_nonneg l))]
    exact isWord_ediv (Int.gcd_pos_of_ne_zero_right z hcast) hz
  unfold Fits
  rw [hnum, and_iff_left hden]
  unfold IsWord at hreduced
  unfold maxPart leastWord
  omega

theorem joinFits_iff (join : Int → Int → Int) (a b : Fraction) :
    JoinFits join a b ↔
      (IsWord (commonDen a b) ∧ IsWord (scaledNum a b) ∧ IsWord (scaledNum b a) ∧
        IsWord (join (scaledNum a b) (scaledNum b a))) ∧
      Fits (mkRat (join (scaledNum a b) (scaledNum b a)) (commonDen a b)) := by
  have hright : scaledNum b a = (a.den.lcm b.den / b.den : Nat) * b.num := by
    rw [scaledNum, commonDen_comm]
    rfl
  constructor
  · rintro ⟨hl, hx, hy, hz, hreduced⟩
    rw [← hright] at hy hz hreduced
    exact ⟨⟨hl, hx, hy, hz⟩, (fits_mkRat_iff (commonDen_ne_zero a b) hl hz).mpr hreduced⟩
  · rintro ⟨⟨hl, hx, hy, hz⟩, hfits⟩
    have hreduced := (fits_mkRat_iff (commonDen_ne_zero a b) hl hz).mp hfits
    rw [hright] at hy hz hreduced
    exact ⟨hl, hx, hy, hz, hreduced⟩

theorem checked_joinNums {join : Int → Int → Int} {a b : Fraction} {exact : Rat}
    (h : mkRat (join (scaledNum a b) (scaledNum b a)) (commonDen a b) = exact) :
    Checked (joinNums join a b) (JoinFits join a b) exact where
  ok_iff := by
    rw [joinFits_iff, h, ← (checked_ofRat exact).ok_iff, joinNums_eq, h]
    split
    · exact (and_iff_right ‹_›).symm
    · refine iff_of_false ?_ (fun h => absurd h.1 ‹_›)
      rintro ⟨c, hc⟩
      cases hc
  value_eq c hc := by
    rw [joinNums_eq, h] at hc
    split at hc
    · exact value_of_ofRat hc
    · cases hc
  fault_eq _ := fault_of_joinNums

theorem checked_add (a b : Fraction) :
    Checked (a.add b) (JoinFits (· + ·) a b) (a.value + b.value) :=
  checked_joinNums (mkRat_add_scaledNum a b)

theorem checked_sub (a b : Fraction) :
    Checked (a.sub b) (JoinFits (· - ·) a b) (a.value - b.value) :=
  checked_joinNums (mkRat_sub_scaledNum a b)

theorem checked_mul (a b : Fraction) :
    Checked (a.mul b) (Fits (a.value * b.value)) (a.value * b.value) := by
  rw [mul_eq_ofRat]
  exact checked_ofRat _

theorem checked_div (a : Fraction) {b : Fraction} (hb : b.value ≠ 0) :
    Checked (a.div b) (Fits (a.value / b.value)) (a.value / b.value) := by
  rw [div_eq_ofRat (Bool.eq_false_iff.mpr (mt isZero_iff_value.mp hb))]
  exact checked_ofRat _

theorem div_eq_divisionByZero_iff {a b : Fraction} :
    a.div b = .error .divisionByZero ↔ b.value = 0 := by
  rw [← isZero_iff_value]
  constructor
  · intro h
    have hfault := fault_of_div h
    split at hfault
    · assumption
    · cases hfault
  · intro hzero
    rw [div, if_pos hzero]

/-- The four operations on any two fractions. -/
theorem arithmetic_checked (a b : Fraction) :
    Checked (a.add b) (JoinFits (· + ·) a b) (a.value + b.value) ∧
    Checked (a.sub b) (JoinFits (· - ·) a b) (a.value - b.value) ∧
    Checked (a.mul b) (Fits (a.value * b.value)) (a.value * b.value) ∧
    (b.value ≠ 0 → Checked (a.div b) (Fits (a.value / b.value)) (a.value / b.value)) ∧
    (a.div b = .error .divisionByZero ↔ b.value = 0) :=
  ⟨checked_add a b, checked_sub a b, checked_mul a b, checked_div a, div_eq_divisionByZero_iff⟩

/-- Before it is reduced, the sum of these two has the least word as its numerator. -/
theorem arithmetic_checked_near_least :
    ∃ a b : Fraction, a.parts = ⟨-0x7fffffffffffffff, 2⟩ ∧ b.parts = ⟨-1, 2⟩ ∧
      scaledNum a b + scaledNum b a = leastWord ∧
      (a.add b).map parts = .ok ⟨-0x4000000000000000, 1⟩ ∧
      b.value ≠ 0 ∧ Checked (a.div b) (Fits (a.value / b.value)) (a.value / b.value) ∧
      (a.div b).map parts = .ok ⟨0x7fffffffffffffff, 1⟩ := by
  let a : Fraction := ⟨mkRat (-0x7fffffffffffffff) 2, by decide +kernel, by decide +kernel⟩
  let b : Fraction := ⟨mkRat (-1) 2, by decide +kernel, by decide +kernel⟩
  have hb : b.value ≠ 0 := by decide +kernel
  exact ⟨a, b, by decide +kernel, by decide +kernel, by decide +kernel, by decide +kernel, hb,
    (arithmetic_checked a b).2.2.2.1 hb, by decide +kernel⟩

end FractionDrill.Fraction
