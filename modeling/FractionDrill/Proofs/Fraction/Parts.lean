import FractionDrill.Proofs.Fraction.Reading

/-!
# Arithmetic on bare parts

A machine holds a fraction as two words, and nothing in that form says that they
are in lowest terms. Here numbers are read and calculated on such pairs alone:
whatever an operation leaves is divided by the greatest common divisor of its two
parts, its sign is moved above, and what does not fit is refused. The results are
the parts of the fractions, and the faults are the same.
-/
namespace FractionDrill
open Text

namespace Parts

/-- The form in which fractions are kept. -/
structure IsCanonical (p : Parts) : Prop where
  den_pos : 0 < p.den
  gcd_eq_one : p.num.gcd p.den = 1
  num_isWord : Fraction.IsWord p.num
  den_isWord : Fraction.IsWord p.den
  num_ne_least : p.num ≠ leastWord
  den_ne_least : p.den ≠ leastWord

/-- Refuses parts of which one is the least word or none at all. -/
def bounded (p : Parts) : Except Fault Parts :=
  if p.num.natAbs ≤ maxPart ∧ p.den.natAbs ≤ maxPart then .ok p else .error .overflow

/-- Reduces what an operation leaves; its sign may only move where that leaves words. -/
def reduced (p : Parts) : Except Fault Parts := do
  bounded (← (lowest p.num p.den).inWords)

def ofInts (n d : Int) : Except Fault Parts :=
  if d = 0 then .error .divisionByZero
  else if maxPart < n.natAbs ∨ maxPart < d.natAbs then .error .overflow
  else .ok (lowest n d)

/-- Adds or subtracts over the least common multiple of the lower parts. -/
def join (f : Int → Int → Int) (p q : Parts) : Except Fault Parts := do
  let l ← word (p.den / p.den.gcd q.den * q.den)
  let x ← word (l / p.den * p.num)
  let y ← word (l / q.den * q.num)
  let z ← word (f x y)
  reduced ⟨z, l⟩

def mul (p q : Parts) : Except Fault Parts := do
  reduced (← p.product q)

def div (p q : Parts) : Except Fault Parts :=
  if q.num = 0 then .error .divisionByZero
  else do reduced (← p.quotient q)

def neg (p : Parts) : Parts := ⟨-p.num, p.den⟩

def apply : Operator → Parts → Parts → Except Fault Parts
  | .plus => join (· + ·)
  | .minus => join (· - ·)
  | .times => mul
  | .divide => div

def readMixed (s whole proper : Text) : Except Fault Parts :=
  match cut '/' proper with
  | none => .error (.malformedNumber s)
  | some (top, bottom) => do
      let w ← Fraction.readSigned s whole
      let n ← Fraction.readUnsigned s top
      let d ← Fraction.readUnsigned s bottom
      let size ← join (· + ·) (← ofInts w.natAbs 1) (← ofInts n d)
      return if whole.head? = some '-' then size.neg else size

/-- Reads the shapes in which fractions are written. -/
def read (s : Text) : Except Fault Parts :=
  match cut Fraction.wholeMark s with
  | some (whole, proper) => readMixed s whole proper
  | none =>
      match cut '/' s with
      | some (top, bottom) => do
          let n ← Fraction.readSigned s top
          let d ← Fraction.readUnsigned s bottom
          ofInts n d
      | none => do ofInts (← Fraction.readSigned s s) 1

end Parts

namespace Fraction

@[simp] theorem num_parts (a : Fraction) : a.parts.num = a.num := rfl

@[simp] theorem den_parts (a : Fraction) : a.parts.den = a.den := rfl

theorem parts_neg (a : Fraction) : a.neg.parts = a.parts.neg := by
  simp [parts, Parts.neg, neg, num, den]

/-- The parts of a fraction need no reduction. -/
theorem isCanonical_parts (a : Fraction) : a.parts.IsCanonical where
  den_pos := Int.natCast_pos.mpr a.den_pos
  gcd_eq_one := a.value.reduced
  num_isWord := isWord_of_natAbs_le a.num_le
  den_isWord := isWord_of_natAbs_le a.den_le
  num_ne_least := ne_leastWord_of_natAbs_le a.num_le
  den_ne_least := ne_leastWord_of_natAbs_le a.den_le

end Fraction

namespace Parts

theorem bounded_lowest (n : Int) {d : Int} (hd : d ≠ 0) :
    bounded (lowest n d) = (Fraction.ofRat (Rat.divInt n d)).map Fraction.parts := by
  rw [lowest_eq n hd]
  unfold bounded Fraction.ofRat
  simp only [Int.natAbs_natCast]
  split <;> rfl

theorem ofInts_eq (n d : Int) : ofInts n d = (Fraction.ofParts n d).map Fraction.parts := by
  unfold ofInts Fraction.ofParts
  by_cases hd : d = 0
  · rw [if_pos hd, if_pos hd]
    rfl
  · by_cases hlarge : maxPart < n.natAbs ∨ maxPart < d.natAbs
    · rw [if_neg hd, if_neg hd, if_pos hlarge, if_pos hlarge]
      rfl
    · have hnum : (lowest n d).num.natAbs ≤ maxPart := by
        rw [lowest_eq n hd]
        exact (Fraction.natAbs_num_divInt_le n hd).trans (by omega)
      have hden : (lowest n d).den.natAbs ≤ maxPart := by
        rw [lowest_eq n hd, Int.natAbs_natCast]
        exact (Fraction.den_divInt_le n hd).trans (by omega)
      rw [if_neg hd, if_neg hd, if_neg hlarge, if_neg hlarge, ← bounded_lowest n hd, bounded,
        if_pos ⟨hnum, hden⟩]

theorem reduced_eq (n : Int) {d : Int} (hd : d ≠ 0) :
    reduced ⟨n, d⟩ = (Fraction.ofReduced ⟨n, d⟩).map Fraction.parts := by
  rw [Fraction.ofReduced_eq n hd, ← bounded_lowest n hd, reduced, inWords_bind]
  split
  · rfl
  · rename_i hwords
    refine (if_neg fun hfits => hwords ?_).symm
    exact ⟨Fraction.isWord_of_natAbs_le hfits.1, Fraction.isWord_of_natAbs_le hfits.2⟩

theorem product_bind_reduced {p q : Parts} (hp : p.den ≠ 0) (hq : q.den ≠ 0) :
    p.product q >>= reduced = (p.product q >>= Fraction.ofReduced).map Fraction.parts := by
  rw [product, inWords_bind, inWords_bind]
  split
  · exact reduced_eq _ (den_crossProduct_ne_zero hp hq)
  · rfl

theorem join_eq (f : Int → Int → Int) (a b : Fraction) :
    join f a.parts b.parts = (Fraction.joinNums f a b).map Fraction.parts := by
  have hcommon : (a.den : Int) / (a.den : Int).gcd b.den * b.den = Fraction.commonDen a b := by
    rw [Fraction.commonDen, Nat.lcm_eq_mul_div, Int.gcd_natCast_natCast,
      ← Nat.div_mul_right_comm (Nat.gcd_dvd_left a.den b.den)]
    push_cast
    rfl
  have hleft : (Fraction.commonDen a b : Int) / a.den * a.num = Fraction.scaledNum a b := rfl
  have hright : (Fraction.commonDen a b : Int) / b.den * b.num = Fraction.scaledNum b a := by
    rw [Fraction.commonDen_comm]
    rfl
  have hne : (Fraction.commonDen a b : Int) ≠ 0 :=
    Int.natCast_ne_zero.mpr (Fraction.commonDen_ne_zero a b)
  simp only [join, Fraction.joinNums, Fraction.num_parts, Fraction.den_parts, word_bind, hcommon,
    hleft, hright, reduced_eq _ hne]
  split_ifs <;> first | rfl | tauto

theorem mul_eq (a b : Fraction) : mul a.parts b.parts = (a.mul b).map Fraction.parts :=
  product_bind_reduced a.den_parts_ne_zero b.den_parts_ne_zero

theorem div_eq (a b : Fraction) : div a.parts b.parts = (a.div b).map Fraction.parts := by
  unfold div Fraction.div Fraction.isZero
  by_cases hzero : b.num = 0
  · have hparts : b.parts.num = 0 := hzero
    rw [if_pos hparts, if_pos (beq_iff_eq.mpr hzero)]
    rfl
  · have hparts : ¬b.parts.num = 0 := hzero
    rw [if_neg hparts, if_neg (mt beq_iff_eq.mp hzero), quotient]
    split_ifs
    · exact reduced_eq _ hparts
    · exact reduced_eq _ a.den_parts_ne_zero
    · exact product_bind_reduced a.den_parts_ne_zero hparts

theorem apply_eq (op : Operator) (a b : Fraction) :
    apply op a.parts b.parts = (op.apply a b).map Fraction.parts := by
  cases op with
  | plus => exact join_eq _ a b
  | minus => exact join_eq _ a b
  | times => exact mul_eq a b
  | divide => exact div_eq a b

theorem map_parts_signed (negative : Prop) [Decidable negative] (a : Fraction) :
    (pure (if negative then a.neg else a) : Except Fault Fraction).map Fraction.parts =
      pure (if negative then a.parts.neg else a.parts) := by
  split
  · rw [← Fraction.parts_neg]
    rfl
  · rfl

theorem readMixed_eq (s whole proper : Text) :
    readMixed s whole proper = (Fraction.readMixed s whole proper).map Fraction.parts := by
  unfold readMixed Fraction.readMixed
  cases cut '/' proper with
  | none => rfl
  | some pieces =>
    simp only [ofInts_eq, Fraction.ofInt, Fault.map_bind, Fault.bind_map, join_eq, Fraction.add,
      map_parts_signed]

/-- What is read on parts are the parts of what is read. -/
theorem read_eq (s : Text) : read s = (Fraction.read s).map Fraction.parts := by
  unfold read Fraction.read
  cases cut Fraction.wholeMark s with
  | some pieces => exact readMixed_eq ..
  | none =>
    cases cut '/' s with
    | some pieces => simp only [ofInts_eq, Fault.map_bind]
    | none => simp only [ofInts_eq, Fraction.ofInt, Fault.map_bind]

end Parts

/-- A number that finitely many operations make of integers and texts. -/
inductive Construction where
  | quotient (n d : Int)
  | whole (n : Int)
  | zero
  | one
  | read (s : Text)
  | apply (op : Operator) (left right : Construction)
  | neg (c : Construction)

namespace Construction

/-- The construction carried out on fractions. -/
def run : Construction → Except Fault Fraction
  | quotient n d => Fraction.ofParts n d
  | whole n => Fraction.ofInt n
  | zero => .ok Fraction.zero
  | one => .ok Fraction.one
  | read s => Fraction.read s
  | apply op left right => do
      let a ← left.run
      let b ← right.run
      op.apply a b
  | neg c => do return (← c.run).neg

/-- The construction carried out on bare parts. -/
def runOnParts : Construction → Except Fault Parts
  | quotient n d => Parts.ofInts n d
  | whole n => Parts.ofInts n 1
  | zero => .ok ⟨0, 1⟩
  | one => .ok ⟨1, 1⟩
  | read s => Parts.read s
  | apply op left right => do
      let p ← left.runOnParts
      let q ← right.runOnParts
      Parts.apply op p q
  | neg c => do return (← c.runOnParts).neg

theorem runOnParts_eq (c : Construction) : c.runOnParts = c.run.map Fraction.parts := by
  induction c with
  | quotient n d => exact Parts.ofInts_eq n d
  | whole n => exact Parts.ofInts_eq n 1
  | zero => rfl
  | one => rfl
  | read s => exact Parts.read_eq s
  | apply op left right ihl ihr =>
    simp only [run, runOnParts, ihl, ihr, Fault.bind_map, Fault.map_bind, Parts.apply_eq]
  | neg c ih =>
    simp only [run, runOnParts, ih, Fault.bind_map, Fault.map_bind, ← Fraction.parts_neg]
    rfl

end Construction

end FractionDrill
