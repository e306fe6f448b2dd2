import FractionDrill.Proofs.Exercise.Domain

/-!
# How far numbers grow

An operation on two fractions multiplies the bounds on their parts and doubles them
once, also for the numbers on the way to its result. So an expression with `k`
operators on numbers whose parts are at most `P` stays below `2 ^ k * P ^ (k + 1)`,
and nothing overflows in it while that bound is a word. The bound holds at every
node, so a random expression within a budget of operators never meets an overflow
either, whatever it draws and however often it draws again.
-/
namespace FractionDrill

namespace Fraction

/-- Both parts are at most the limit. -/
structure Within (limit : Nat) (a : Fraction) : Prop where
  num_le : a.num.natAbs ≤ limit
  den_le : a.den ≤ limit

variable {a b c : Fraction} {x y : Nat}

theorem Within.mono (ha : a.Within x) (h : x ≤ y) : a.Within y :=
  ⟨ha.num_le.trans h, ha.den_le.trans h⟩

theorem commonDen_le (ha : a.Within x) (hb : b.Within y) : commonDen a b ≤ x * y :=
  (Nat.div_le_self _ _).trans (Nat.mul_le_mul ha.den_le hb.den_le)

theorem natAbs_scaledNum_le (ha : a.Within x) (hb : b.Within y) :
    (scaledNum a b).natAbs ≤ x * y := by
  have hfactor : commonDen a b / a.den ≤ b.den :=
    Nat.div_le_of_le_mul (Nat.div_le_self _ _)
  rw [scaledNum, Int.natAbs_mul, Int.natAbs_natCast, Nat.mul_comm]
  exact Nat.mul_le_mul ha.num_le (hfactor.trans hb.den_le)

/-- The numerator over the common denominator of a sum or a difference. -/
theorem natAbs_join_le {join : Int → Int → Int}
    (hjoin : ∀ u v, (join u v).natAbs ≤ u.natAbs + v.natAbs) (ha : a.Within x) (hb : b.Within y) :
    (join (scaledNum a b) (scaledNum b a)).natAbs ≤ 2 * (x * y) := by
  have hleft := natAbs_scaledNum_le ha hb
  have hright := natAbs_scaledNum_le hb ha
  calc (join (scaledNum a b) (scaledNum b a)).natAbs
      ≤ x * y + y * x := (hjoin _ _).trans (Nat.add_le_add hleft hright)
    _ = 2 * (x * y) := by ring

/-- An outcome that stays within the limit, and overflows only where the limit itself does
not fit. -/
structure StaysWithin (limit : Nat) (outcome : Except Fault Fraction) : Prop where
  within : ∀ c, outcome = .ok c → c.Within limit
  lt_of_overflow : outcome = .error .overflow → maxPart < limit

theorem StaysWithin.ok {limit : Nat} {c : Fraction} (h : c.Within limit) :
    StaysWithin limit (.ok c) := by
  constructor
  · intro c' hc'
    cases hc'
    exact h
  · intro hfault
    cases hfault

theorem StaysWithin.overflow {limit : Nat} (h : maxPart < limit) :
    StaysWithin limit (.error .overflow) := by
  constructor
  · intro c hc
    cases hc
  · intro _
    exact h

theorem StaysWithin.mono {small large : Nat} {outcome : Except Fault Fraction}
    (h : StaysWithin small outcome) (hle : small ≤ large) : StaysWithin large outcome where
  within c hc := (h.within c hc).mono hle
  lt_of_overflow hfault := (h.lt_of_overflow hfault).trans_le hle

/-- A quotient of integers has parts that are no larger than they are. -/
theorem staysWithin_ofRat {n d : Int} {limit : Nat} (hd : d ≠ 0) (hnum : n.natAbs ≤ limit)
    (hden : d.natAbs ≤ limit) : StaysWithin limit (ofRat (Rat.divInt n d)) := by
  have hnumle : (Rat.divInt n d).num.natAbs ≤ limit := (natAbs_num_divInt_le n hd).trans hnum
  have hdenle : (Rat.divInt n d).den ≤ limit := (den_divInt_le n hd).trans hden
  unfold ofRat
  split
  · exact .ok ⟨hnumle, hdenle⟩
  · refine .overflow ?_
    omega

theorem staysWithin_joinNums {join : Int → Int → Int}
    (hjoin : ∀ u v, (join u v).natAbs ≤ u.natAbs + v.natAbs) (ha : a.Within x) (hb : b.Within y) :
    StaysWithin (2 * (x * y)) (joinNums join a b) := by
  have hcommon : commonDen a b ≤ 2 * (x * y) := by
    have hle := commonDen_le ha hb
    omega
  have hleft : (scaledNum a b).natAbs ≤ 2 * (x * y) := by
    have hle := natAbs_scaledNum_le ha hb
    omega
  have hright : (scaledNum b a).natAbs ≤ 2 * (x * y) := by
    have hle := natAbs_scaledNum_le hb ha
    rw [Nat.mul_comm y x] at hle
    omega
  have hjoined := natAbs_join_le hjoin ha hb
  have hne : (commonDen a b : Int) ≠ 0 := Int.natCast_ne_zero.mpr (commonDen_ne_zero a b)
  rw [joinNums_eq]
  split
  · rw [Rat.mkRat_eq_divInt]
    exact staysWithin_ofRat hne hjoined (by rwa [Int.natAbs_natCast])
  · rename_i hwords
    refine .overflow ?_
    by_contra hle
    have hword : ∀ z : Int, z.natAbs ≤ 2 * (x * y) → IsWord z :=
      fun z hz => isWord_of_natAbs_le (hz.trans (by omega))
    exact hwords ⟨hword _ (by rwa [Int.natAbs_natCast]), hword _ hleft, hword _ hright,
      hword _ hjoined⟩

end Fraction

open Fraction in
/-- The step of the growth: the limits of the operands are multiplied and doubled. -/
theorem Operator.staysWithin_apply (op : Operator) {a b : Fraction} {x y : Nat}
    (ha : a.Within x) (hb : b.Within y) : StaysWithin (2 * (x * y)) (op.apply a b) := by
  have hdouble : x * y ≤ 2 * (x * y) := Nat.le_mul_of_pos_left _ Nat.two_pos
  cases op with
  | plus => exact staysWithin_joinNums Int.natAbs_add_le ha hb
  | minus => exact staysWithin_joinNums Int.natAbs_sub_le ha hb
  | times =>
    have hne : ((a.den * b.den : Nat) : Int) ≠ 0 :=
      Int.natCast_ne_zero.mpr (Nat.mul_ne_zero a.value.den_nz b.value.den_nz)
    have hnum : a.num.natAbs * b.num.natAbs ≤ x * y := Nat.mul_le_mul ha.num_le hb.num_le
    have hden : a.den * b.den ≤ x * y := Nat.mul_le_mul ha.den_le hb.den_le
    rw [Operator.apply, mul_eq_ofRat, Rat.mul_eq_mkRat, Rat.mkRat_eq_divInt]
    refine (staysWithin_ofRat hne ?_ ?_).mono hdouble
    · rwa [Int.natAbs_mul]
    · rwa [Int.natAbs_natCast]
  | divide =>
    have hnum : a.num.natAbs * b.den ≤ x * y := Nat.mul_le_mul ha.num_le hb.den_le
    have hden : a.den * b.num.natAbs ≤ x * y := Nat.mul_le_mul ha.den_le hb.num_le
    rw [Operator.apply]
    cases hzero : b.isZero with
    | true =>
      rw [div, if_pos hzero]
      constructor
      · intro c hc
        cases hc
      · intro hfault
        cases hfault
    | false =>
      have hne : (a.den : Int) * b.num ≠ 0 :=
        Int.mul_ne_zero (Int.natCast_ne_zero.mpr a.value.den_nz) (beq_eq_false_iff_ne.mp hzero)
      rw [div_eq_ofRat hzero, Rat.div_def']
      refine (staysWithin_ofRat hne ?_ ?_).mono hdouble
      · rwa [Int.natAbs_mul, Int.natAbs_natCast]
      · rwa [Int.natAbs_mul, Int.natAbs_natCast]

/-- The limit for `k` operators on numbers within the given limit. -/
def growthLimit (limit k : Nat) : Nat := 2 ^ k * limit ^ (k + 1)

theorem growthLimit_zero (limit : Nat) : growthLimit limit 0 = limit := by simp [growthLimit]

theorem growthLimit_join (limit k l : Nat) :
    2 * (growthLimit limit k * growthLimit limit l) = growthLimit limit (1 + k + l) := by
  unfold growthLimit
  ring

theorem growthLimit_mono {limit k l : Nat} (hlimit : 1 ≤ limit) (h : k ≤ l) :
    growthLimit limit k ≤ growthLimit limit l :=
  Nat.mul_le_mul (Nat.pow_le_pow_right Nat.two_pos h)
    (Nat.pow_le_pow_right hlimit (Nat.succ_le_succ h))

theorem le_growthLimit {limit : Nat} (hlimit : 1 ≤ limit) (k : Nat) :
    limit ≤ growthLimit limit k := by
  have hle := growthLimit_mono hlimit (Nat.zero_le k)
  rwa [growthLimit_zero] at hle

/-- The value of an expression stays within the limit for its operators. -/
theorem Expr.staysWithin_value {e : Expr} {limit : Nat} (hlimit : 1 ≤ limit)
    (hleaves : ∀ q ∈ e.leaves, q.Within limit) :
    Fraction.StaysWithin (growthLimit limit e.operatorCount) e.value := by
  induction e with
  | number q =>
    rw [operatorCount, growthLimit_zero]
    exact .ok (hleaves q List.mem_cons_self)
  | binary op left right ihl ihr =>
    have hl := ihl fun q hq => hleaves q (List.mem_append_left _ hq)
    have hr := ihr fun q hq => hleaves q (List.mem_append_right _ hq)
    have hjoin := growthLimit_join limit left.operatorCount right.operatorCount
    constructor
    · intro c hc
      obtain ⟨a, b, ha, hb, hv⟩ := value_binary_eq_ok.mp hc
      rw [operatorCount, ← hjoin]
      exact (op.staysWithin_apply (hl.within a ha) (hr.within b hb)).within c hv
    · intro h
      simp only [value, Fault.bind_eq_error_iff] at h
      rcases h with h | ⟨a, ha, h | ⟨b, hb, h⟩⟩
      · exact (hl.lt_of_overflow h).trans_le
          (growthLimit_mono hlimit (by rw [operatorCount]; omega))
      · exact (hr.lt_of_overflow h).trans_le
          (growthLimit_mono hlimit (by rw [operatorCount]; omega))
      · rw [operatorCount, ← hjoin]
        exact (op.staysWithin_apply (hl.within a ha) (hr.within b hb)).lt_of_overflow h

/-- The numbers of an exercise are within its bound. -/
theorem Expr.IsExercise.within_of_mem_leaves {bound : Nat} {e : Expr} (h : e.IsExercise bound)
    {q : Fraction} (hq : q ∈ e.leaves) : q.Within bound := by
  rcases h.leaves q hq with ⟨hden, hone, hnum⟩ | ⟨hone, hnum, hden, -⟩
  · constructor <;> omega
  · constructor <;> omega

/-- The value of an exercise is within the limit for its budget. -/
theorem Valued.WithinRules.within {bound budget : Nat} {v : Valued} (h : v.WithinRules bound budget)
    (hbound : 1 ≤ bound) : v.value.Within (growthLimit bound budget) :=
  ((Expr.staysWithin_value hbound fun _ => h.isExercise.within_of_mem_leaves).within
    v.value h.value_eq).mono (growthLimit_mono hbound h.operatorCount_le)

end FractionDrill
