import FractionDrill.Expr.Token
import Mathlib.Algebra.Order.Field.Rat

/-!
# Literals

A literal is a number as the grammar of expressions has it: an optional minus
sign and then one of three shapes made of nonempty runs of digits. The runs may
have leading zeros, and nothing is said here about the size of a number or about
a zero below the slash.

Every fraction has a literal, and its text is the one that is written.
-/
namespace FractionDrill
open Text

/-- A nonempty run of digits. -/
abbrev Numeral := { s : Text // isNumeral s = true }

namespace Numeral

def value (n : Numeral) : Nat := numeralValue n.val

def ofNat (k : Nat) : Numeral := ⟨natural k, isNumeral_natural k⟩

@[simp] theorem value_ofNat (k : Nat) : (ofNat k).value = k := numeralValue_natural k

theorem isDigit (n : Numeral) {c : Char} (h : c ∈ n.val) : c.isDigit = true := by
  have hall := n.property
  simp only [isNumeral, Bool.and_eq_true, List.all_eq_true] at hall
  exact hall.2 c h

theorem exists_cons (n : Numeral) : ∃ c rest, n.val = c :: rest ∧ c.isDigit = true := by
  cases hn : n.val with
  | nil =>
    have hall := n.property
    simp [isNumeral, hn] at hall
  | cons c rest => exact ⟨c, rest, rfl, n.isDigit (hn ▸ List.mem_cons_self)⟩

theorem not_mem (n : Numeral) {mark : Char} (h : mark.isDigit = false) : mark ∉ n.val := by
  intro hmem
  rw [n.isDigit hmem] at h
  cases h

end Numeral

namespace Literal

/-- The three shapes of a number after its sign. -/
inductive Shape where
  | whole (n : Numeral)
  | quotient (top bottom : Numeral)
  | mixed (whole top bottom : Numeral)

namespace Shape

def text : Shape → Text
  | whole n => n.val
  | quotient top bottom => top.val ++ '/' :: bottom.val
  | mixed w top bottom => w.val ++ Fraction.wholeMark :: (top.val ++ '/' :: bottom.val)

def numerals : Shape → List Numeral
  | whole n => [n]
  | quotient top bottom => [top, bottom]
  | mixed w top bottom => [w, top, bottom]

/-- The number below the slash, or one. -/
def denominator : Shape → Nat
  | whole _ => 1
  | quotient _ bottom => bottom.value
  | mixed _ _ bottom => bottom.value

/-- The exact number, whatever its size. -/
def size : Shape → Rat
  | whole n => n.value
  | quotient top bottom => (top.value : Rat) / bottom.value
  | mixed w top bottom => w.value + (top.value : Rat) / bottom.value

/-- A shape starts with a digit. -/
theorem text_eq_cons (p : Shape) : ∃ c rest, p.text = c :: rest ∧ c.isDigit = true := by
  cases p with
  | whole n => exact n.exists_cons
  | quotient top bottom =>
    obtain ⟨c, rest, htop, hc⟩ := top.exists_cons
    exact ⟨c, _, by rw [text, htop, List.cons_append], hc⟩
  | mixed w top bottom =>
    obtain ⟨c, rest, hw, hc⟩ := w.exists_cons
    exact ⟨c, _, by rw [text, hw, List.cons_append], hc⟩

theorem isNumberPart_of_mem (p : Shape) {c : Char} (h : c ∈ p.text) :
    Token.isNumberPart c = true := by
  have hdigit : ∀ n : Numeral, c ∈ n.val → Token.isNumberPart c = true := fun n hn => by
    simp [Token.isNumberPart, n.isDigit hn]
  cases p with
  | whole n => exact hdigit n h
  | quotient top bottom =>
    simp only [text, List.mem_append, List.mem_cons] at h
    rcases h with h | rfl | h
    · exact hdigit top h
    · rfl
    · exact hdigit bottom h
  | mixed w top bottom =>
    simp only [text, List.mem_append, List.mem_cons] at h
    rcases h with h | rfl | h | rfl | h
    · exact hdigit w h
    · rfl
    · exact hdigit top h
    · rfl
    · exact hdigit bottom h

end Shape

def sign (negative : Bool) : Text := if negative then ['-'] else []

end Literal

structure Literal where
  negative : Bool
  shape : Literal.Shape

namespace Literal

def text (l : Literal) : Text := sign l.negative ++ l.shape.text

/-- The exact number, whose sign is that of all its parts. -/
def value (l : Literal) : Rat := if l.negative then -l.shape.size else l.shape.size

/-- The characters of a literal are a minus sign and the parts of a number. -/
theorem minus_or_isNumberPart (l : Literal) {c : Char} (h : c ∈ l.text) :
    c = '-' ∨ Token.isNumberPart c = true := by
  unfold text sign at h
  rcases List.mem_append.mp h with h | h
  · split at h
    · exact .inl (List.mem_singleton.mp h)
    · cases h
  · exact .inr (l.shape.isNumberPart_of_mem h)

end Literal

namespace Fraction

/-- The shape in which a fraction is written. -/
def shape (a : Fraction) : Literal.Shape :=
  if a.den = 1 then .whole (.ofNat a.num.natAbs)
  else if a.den < a.num.natAbs then
    .mixed (.ofNat (a.num.natAbs / a.den)) (.ofNat (a.num.natAbs % a.den)) (.ofNat a.den)
  else .quotient (.ofNat a.num.natAbs) (.ofNat a.den)

def literal (a : Fraction) : Literal := ⟨decide (a.num < 0), a.shape⟩

theorem integer_eq_sign (z : Int) :
    integer z = Literal.sign (decide (z < 0)) ++ natural z.natAbs := by
  cases z with
  | ofNat n =>
    have hz : ¬ Int.ofNat n < 0 := Int.not_lt.mpr (Int.natCast_nonneg n)
    simp only [Literal.sign, hz, decide_false]
    rfl
  | negSucc n =>
    have hz : Int.negSucc n < 0 := Int.negSucc_lt_zero n
    simp only [Literal.sign, hz, decide_true]
    rfl

/-- The whole part of a mixed number has the sign of the number. -/
theorem integer_tdiv_eq_sign {z : Int} {d : Nat} (hd : 0 < d) (h : d < z.natAbs) :
    integer (z.tdiv d) = Literal.sign (decide (z < 0)) ++ natural (z.natAbs / d) := by
  have hquot : 0 < z.natAbs / d := Nat.div_pos (Nat.le_of_lt h) hd
  have habs : (z.tdiv d).natAbs = z.natAbs / d := Int.natAbs_tdiv z d
  have hsign : z.tdiv d < 0 ↔ z < 0 := by
    rcases Int.lt_or_le z 0 with hz | hz
    · have hneg : (-z).tdiv d = -z.tdiv d := Int.neg_tdiv ..
      have hnonneg : 0 ≤ (-z).tdiv d := Int.tdiv_nonneg (by omega) (by omega)
      omega
    · have hnonneg : 0 ≤ z.tdiv d := Int.tdiv_nonneg hz (by omega)
      omega
  rw [integer_eq_sign, habs, decide_eq_decide.mpr hsign]

theorem text_literal (a : Fraction) : a.literal.text = a.render := by
  unfold Literal.text literal shape render
  split
  · exact (integer_eq_sign a.num).symm
  · split
    · have hmod : (a.num.tmod a.den).natAbs = a.num.natAbs % a.den := Int.natAbs_tmod a.num a.den
      rw [integer_tdiv_eq_sign a.den_pos ‹_›, hmod]
      simp [Literal.Shape.text, Numeral.ofNat]
    · rw [integer_eq_sign]
      simp [Literal.Shape.text, Numeral.ofNat]

theorem size_shape (a : Fraction) : a.shape.size = (a.num.natAbs : Rat) / a.den := by
  unfold shape
  split
  · rename_i hden
    simp [Literal.Shape.size, hden]
  · split
    · have hden : (a.den : Rat) ≠ 0 := Nat.cast_ne_zero.mpr a.value.den_nz
      have hsplit : (a.num.natAbs : Rat) =
          a.den * (a.num.natAbs / a.den : Nat) + (a.num.natAbs % a.den : Nat) := by
        exact_mod_cast (Nat.div_add_mod a.num.natAbs a.den).symm
      simp only [Literal.Shape.size, Numeral.value_ofNat]
      rw [hsplit, add_div, mul_div_cancel_left₀ _ hden]
    · simp [Literal.Shape.size]

/-- The literal of a fraction stands for the same number. -/
theorem value_literal (a : Fraction) : a.literal.value = a.value := by
  have hnum : (a.num : Rat) / a.den = a.value := Rat.num_div_den a.value
  unfold Literal.value literal
  rw [size_shape]
  rcases Int.lt_or_le a.num 0 with hneg | hneg
  · have habs : (a.num.natAbs : Int) = -a.num := Int.ofNat_natAbs_of_nonpos (Int.le_of_lt hneg)
    have hcast : (a.num.natAbs : Rat) = -a.num := by
      rw [← Int.cast_natCast, habs, Int.cast_neg]
    simp only [hneg, decide_true, if_true, hcast, neg_div, neg_neg, hnum]
  · have habs : (a.num.natAbs : Int) = a.num := Int.natAbs_of_nonneg hneg
    have hcast : (a.num.natAbs : Rat) = a.num := by rw [← Int.cast_natCast, habs]
    simp only [Int.not_lt.mpr hneg, decide_false, hcast, hnum]
    rfl

end Fraction
end FractionDrill
