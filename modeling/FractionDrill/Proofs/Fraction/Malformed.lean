import FractionDrill.Proofs.Fraction.Reading
import Mathlib.Data.List.Basic

/-!
# Texts that are no number

The reader looks at the parts of a number from left to right, and converts each of them
before it looks at the next. A text of none of the three shapes is therefore quoted as
malformed, unless a run of digits that is too large stands in front of the part that has
no form: then the reader stops there with an overflow. A division by zero is reported
only of a text that has one of the shapes.
-/
namespace FractionDrill
open Text

/-- The text has one of the three shapes of a number. -/
def IsLiteral (s : Text) : Prop := ∃ l : Literal, l.text = s

/-- A run of digits that is too large stands where the reader converts it before it looks further:
in front of the slash, in front of the whole mark where a slash follows, or between the two. -/
inductive Overruns : Text → Prop
  | top (negative : Bool) {top : Numeral} {rest : Text} : maxPart < top.value →
      Fraction.wholeMark ∉ rest → Overruns (Literal.sign negative ++ top.val ++ '/' :: rest)
  | whole (negative : Bool) {w : Numeral} {rest : Text} : maxPart < w.value → '/' ∈ rest →
      Overruns (Literal.sign negative ++ w.val ++ Fraction.wholeMark :: rest)
  | topOfMixed (negative : Bool) {w top : Numeral} {rest : Text} : maxPart < top.value →
      Overruns (Literal.sign negative ++ w.val ++
        Fraction.wholeMark :: (top.val ++ '/' :: rest))

/-- The last character of a literal is a digit. -/
theorem Literal.isDigit_of_getLast? (l : Literal) {c : Char} (h : c ∈ l.text.getLast?) :
    c.isDigit = true := by
  have hrun : ∀ (front : Text) (n : Numeral), c ∈ (front ++ n.val).getLast? →
      c.isDigit = true := by
    intro front n hlast
    obtain ⟨d, rest, hn, -⟩ := n.exists_cons
    rw [List.getLast?_append_of_ne_nil _ (by simp [hn])] at hlast
    exact n.isDigit (List.mem_of_getLast? hlast)
  obtain ⟨negative, shape⟩ := l
  cases shape with
  | whole n => exact hrun _ n h
  | quotient top bottom =>
    refine hrun (sign negative ++ top.val ++ ['/']) bottom ?_
    simpa [text, Shape.text] using h
  | mixed w top bottom =>
    refine hrun (sign negative ++ w.val ++ Fraction.wholeMark :: (top.val ++ ['/'])) bottom ?_
    simpa [text, Shape.text] using h

namespace Fraction

/-- What stands behind a run of digits that is too large is not looked at. -/
theorem read_of_overruns {s : Text} (h : Overruns s) : read s = .error .overflow := by
  cases h with
  | top negative hlarge hmark =>
    rename_i top rest
    have hwhole : cut wholeMark (Literal.sign negative ++ top.val ++ '/' :: rest) = none := by
      apply cut_eq_none
      rw [List.mem_append, List.mem_cons]
      rintro (h | h | h)
      · exact not_mem_sign_append negative top (by decide) (by decide) h
      · cases h
      · exact hmark h
    have hslash : cut '/' (Literal.sign negative ++ top.val ++ '/' :: rest) =
        some (Literal.sign negative ++ top.val, rest) :=
      cut_append (not_mem_sign_append negative top (by decide) (by decide)) rest
    simp only [read, hwhole, hslash, readSigned_sign, if_pos hlarge, Fault.error_bind]
  | whole negative hlarge hslash =>
    rename_i w rest
    have hwhole : cut wholeMark (Literal.sign negative ++ w.val ++ wholeMark :: rest) =
        some (Literal.sign negative ++ w.val, rest) :=
      cut_append (not_mem_sign_append negative w (by decide) (by decide)) rest
    cases hcut : cut '/' rest with
    | none => exact absurd hslash (cut_eq_none_iff.mp hcut)
    | some pieces =>
      simp only [read, hwhole, readMixed, hcut, readSigned_sign, if_pos hlarge, Fault.error_bind]
  | topOfMixed negative hlarge =>
    rename_i w top rest
    have hwhole : cut wholeMark
        (Literal.sign negative ++ w.val ++ wholeMark :: (top.val ++ '/' :: rest)) =
        some (Literal.sign negative ++ w.val, top.val ++ '/' :: rest) :=
      cut_append (not_mem_sign_append negative w (by decide) (by decide)) _
    have hslash : cut '/' (top.val ++ '/' :: rest) = some (top.val, rest) :=
      cut_append (top.not_mem (by decide)) rest
    simp only [read, hwhole, readMixed, hslash, readSigned_sign, readUnsigned_numeral,
      if_pos hlarge]
    split <;> rfl

theorem isLiteral_or_overruns_of_readMixed {s whole proper : Text}
    (h : readMixed s whole proper ≠ .error (.malformedNumber s)) :
    IsLiteral (whole ++ wholeMark :: proper) ∨ Overruns (whole ++ wholeMark :: proper) := by
  unfold readMixed at h
  cases hslash : cut '/' proper with
  | none =>
    simp only [hslash] at h
    exact absurd rfl h
  | some pieces =>
    obtain ⟨top, bottom⟩ := pieces
    simp only [hslash] at h
    rw [cut_eq_some hslash]
    obtain ⟨negative, w, rfl⟩ := exists_signed_of_ne_malformed (Fault.ne_error_of_bind h)
    by_cases hw : maxPart < w.value
    · exact .inr (.whole negative hw (by simp))
    rw [readSigned_sign, if_neg hw, Fault.ok_bind] at h
    obtain ⟨top, rfl⟩ := exists_numeral_of_ne_malformed (Fault.ne_error_of_bind h)
    by_cases htop : maxPart < top.value
    · exact .inr (.topOfMixed negative htop)
    rw [readUnsigned_numeral, if_neg htop, Fault.ok_bind] at h
    obtain ⟨bottom, rfl⟩ := exists_numeral_of_ne_malformed (Fault.ne_error_of_bind h)
    exact .inl ⟨⟨negative, .mixed w top bottom⟩, by simp [Literal.text, Literal.Shape.text]⟩

/-- A text that is not quoted as malformed has one of the three shapes, or a run of digits that is
too large. -/
theorem isLiteral_or_overruns {s : Text} (h : read s ≠ .error (.malformedNumber s)) :
    IsLiteral s ∨ Overruns s := by
  unfold read at h
  cases hwhole : cut wholeMark s with
  | some pieces =>
    simp only [hwhole] at h
    rw [cut_eq_some hwhole]
    exact isLiteral_or_overruns_of_readMixed h
  | none =>
    simp only [hwhole] at h
    cases hslash : cut '/' s with
    | some pieces =>
      obtain ⟨top, bottom⟩ := pieces
      simp only [hslash] at h
      have hmark : wholeMark ∉ s := cut_eq_none_iff.mp hwhole
      rw [cut_eq_some hslash] at hmark ⊢
      obtain ⟨negative, top, rfl⟩ := exists_signed_of_ne_malformed (Fault.ne_error_of_bind h)
      by_cases htop : maxPart < top.value
      · exact .inr (.top negative htop fun hmem => hmark (by simp [hmem]))
      rw [readSigned_sign, if_neg htop, Fault.ok_bind] at h
      obtain ⟨bottom, rfl⟩ := exists_numeral_of_ne_malformed (Fault.ne_error_of_bind h)
      exact .inl ⟨⟨negative, .quotient top bottom⟩, by simp [Literal.text, Literal.Shape.text]⟩
    | none =>
      simp only [hslash] at h
      obtain ⟨negative, n, rfl⟩ := exists_signed_of_ne_malformed (Fault.ne_error_of_bind h)
      exact .inl ⟨⟨negative, .whole n⟩, rfl⟩

/-- Of a text that has no shape the reader tells the whole, or it overflows. -/
theorem read_of_not_isLiteral {s : Text} (h : ¬IsLiteral s) :
    (Overruns s ∧ read s = .error .overflow) ∨
      (¬Overruns s ∧ read s = .error (.malformedNumber s)) := by
  by_cases hoverruns : Overruns s
  · exact .inl ⟨hoverruns, read_of_overruns hoverruns⟩
  · refine .inr ⟨hoverruns, ?_⟩
    by_contra hread
    exact (isLiteral_or_overruns hread).elim h hoverruns

theorem not_isLiteral_of_read {s t : Text} (h : read s = .error (.malformedNumber t)) :
    ¬IsLiteral s := by
  rintro ⟨l, rfl⟩
  rw [read_text] at h
  rcases l.fault_of_outcome h with h | h <;> cases h

end Fraction
end FractionDrill
