import FractionDrill.Proofs.Fraction.Exact
import FractionDrill.Proofs.Fraction.Literal
import Mathlib.Data.Rat.Lemmas

/-!
# Reading literals

The reader accepts the text of a literal whose runs of digits fit and whose lower
number is not zero, and gives its exact value where that value fits. In
particular it reads every written fraction back. A text that it accepts is the
text of a literal, so nothing else is ever taken for a number.
-/
namespace FractionDrill
open Text

/-- Every run of digits stands for at most the largest part of a fraction. -/
def Literal.Shape.Fits (p : Literal.Shape) : Prop := ∀ n ∈ p.numerals, n.value ≤ maxPart

instance (p : Literal.Shape) : Decidable p.Fits :=
  inferInstanceAs (Decidable (∀ n ∈ p.numerals, n.value ≤ maxPart))

/-- What the reader makes of a literal: an overflow of a part is reported before a zero
denominator, and that before a value that does not fit. -/
def Literal.outcome (l : Literal) : Except Fault Fraction :=
  if ¬l.shape.Fits then .error .overflow
  else if l.shape.denominator = 0 then .error .divisionByZero
  else Fraction.ofRat l.value

theorem Literal.outcome_of_fits {l : Literal} (h : l.shape.Fits) :
    l.outcome = if l.shape.denominator = 0 then .error .divisionByZero
      else Fraction.ofRat l.value := by
  rw [outcome, if_neg (not_not.mpr h)]

theorem Literal.outcome_of_overflow {l : Literal} {n : Numeral} (hn : n ∈ l.shape.numerals)
    (h : maxPart < n.value) : l.outcome = .error .overflow := by
  rw [outcome, if_pos]
  intro hfits
  exact absurd (hfits n hn) (Nat.not_le.mpr h)

/-- The fault of a literal is never about its form. -/
theorem Literal.fault_of_outcome {l : Literal} {fault : Fault} (h : l.outcome = .error fault) :
    fault.IsArithmetic := by
  unfold outcome at h
  split at h
  · cases h
    exact .inr rfl
  · split at h
    · cases h
      exact .inl rfl
    · exact .inr (Fraction.fault_of_ofRat h)

/-- The number of a run of digits with a sign. -/
def Literal.signed (negative : Bool) (k : Nat) : Int := if negative then -k else k

namespace Fraction

theorem natAbs_signed (negative : Bool) (k : Nat) : (Literal.signed negative k).natAbs = k := by
  cases negative with
  | false => rfl
  | true => exact Int.natAbs_neg k

theorem readUnsigned_numeral (whole : Text) (n : Numeral) :
    readUnsigned whole n.val =
      if maxPart < n.value then .error .overflow else .ok (n.value : Int) := by
  simp only [readUnsigned, n.property, Bool.not_true, Bool.false_eq_true, if_false]
  rfl

theorem readSigned_sign (whole : Text) (negative : Bool) (n : Numeral) :
    readSigned whole (Literal.sign negative ++ n.val) =
      if maxPart < n.value then .error .overflow else .ok (Literal.signed negative n.value) := by
  cases negative with
  | true =>
    simp only [Literal.sign, if_true, List.cons_append, List.nil_append, readSigned,
      readUnsigned_numeral]
    split <;> rfl
  | false =>
    obtain ⟨c, rest, hn, hc⟩ := n.exists_cons
    have hdash : c ≠ '-' := by
      rintro rfl
      cases hc
    have hunsigned : readSigned whole n.val = readUnsigned whole n.val := by
      rw [hn, readSigned]
      intro part hpart
      exact hdash (List.cons.inj hpart).1
    rw [Literal.sign, if_neg Bool.false_ne_true, List.nil_append, hunsigned, readUnsigned_numeral]
    rfl

/-- A literal with a part that does not fit overflows, so what follows a part need only be
right where the part fits. -/
theorem bind_part {l : Literal} {n : Numeral} (hn : n ∈ l.shape.numerals) {k : Int}
    {f : Int → Except Fault Fraction} (h : n.value ≤ maxPart → f k = l.outcome) :
    (if maxPart < n.value then .error .overflow else .ok k : Except Fault Int) >>= f =
      l.outcome := by
  rcases Nat.lt_or_ge maxPart n.value with hlt | hle
  · rw [if_pos hlt, Literal.outcome_of_overflow hn hlt]
    rfl
  · rw [if_neg (Nat.not_lt.mpr hle)]
    exact h hle

/-- Parts that fit make a quotient that fits, unless the lower one is zero. -/
theorem ofParts_of_le {n : Int} {d : Nat} (hn : n.natAbs ≤ maxPart) (hd : d ≤ maxPart) :
    ofParts n d = if d = 0 then .error .divisionByZero else ofRat ((n : Rat) / d) := by
  have hsize : ¬(maxPart < n.natAbs ∨ maxPart < (d : Int).natAbs) := by
    rw [Int.natAbs_natCast]
    omega
  simp only [ofParts, Int.natCast_eq_zero, hsize, if_false]
  rw [Rat.divInt_eq_div]
  rfl

theorem ofInt_of_le {n : Int} (hn : n.natAbs ≤ maxPart) : ofInt n = ofRat n := by
  have h := ofParts_of_le (d := 1) hn (by decide)
  simpa [ofInt] using h

theorem ofRat_neg (q : Rat) : ofRat (-q) = (ofRat q).map neg := by
  unfold ofRat
  simp only [Rat.neg_num, Rat.neg_den, Int.natAbs_neg]
  split <;> rfl

/-- A whole number and a fraction that are not negative have a sum in lowest terms, so
the sum overflows only where its own numerator does not fit. -/
theorem add_whole {a b : Fraction} {w : Nat} (ha : a.value = w) (hb : 0 ≤ b.num) :
    a.add b = ofRat (a.value + b.value) := by
  have haden : a.den = 1 := by rw [den, ha, Rat.den_natCast]
  have hanum : a.num = w := by rw [num, ha, Rat.num_natCast]
  have hcommon : commonDen a b = b.den := by rw [commonDen, haden, Nat.lcm_one_left]
  have hx : scaledNum a b = b.den * w := by
    rw [scaledNum, hcommon, haden, Nat.div_one, hanum]
  have hy : scaledNum b a = b.num := by
    rw [scaledNum, commonDen_comm, hcommon, Nat.div_self b.den_pos, Nat.cast_one, one_mul]
  have hsumden : (a.value + b.value).den = b.den := by rw [ha, Rat.natCast_add_den, den]
  have hsumnum : (a.value + b.value).num = b.den * w + b.num := by
    have hcast : ((a.value + b.value).num : Rat) = ((b.den * w + b.num : Int) : Rat) := by
      rw [← Rat.mul_den_eq_num, hsumden, ha, add_mul, den, Rat.mul_den_eq_num, num]
      push_cast
      ring
    exact_mod_cast hcast
  have hsum : mkRat (scaledNum a b + scaledNum b a) (commonDen a b) = a.value + b.value :=
    mkRat_add_scaledNum a b
  have hxnonneg : 0 ≤ (b.den : Int) * w :=
    Int.mul_nonneg (Int.natCast_nonneg _) (Int.natCast_nonneg _)
  rw [add, joinNums_eq, hsum]
  by_cases hfit : (a.value + b.value).num.natAbs ≤ maxPart
  · have hden : b.den ≤ maxPart := b.den_le
    refine if_pos ⟨?_, ?_, ?_, ?_⟩
    · exact isWord_of_natAbs_le (by rwa [hcommon, Int.natAbs_natCast])
    · exact isWord_of_natAbs_le (by rw [hx]; omega)
    · exact isWord_of_natAbs_le (by rw [hy]; omega)
    · exact isWord_of_natAbs_le (by rw [hx, hy]; omega)
  · have hword : ¬IsWord (scaledNum a b + scaledNum b a) := by
      rw [hx, hy, ← hsumnum]
      intro hword
      exact hfit (natAbs_le_of_isWord hword (by omega))
    rw [if_neg (fun h => hword h.2.2.2), ofRat, dif_neg (fun h => hfit h.1)]

theorem not_mem_sign_append (negative : Bool) (n : Numeral) {mark : Char} (hdash : mark ≠ '-')
    (hdigit : mark.isDigit = false) : mark ∉ Literal.sign negative ++ n.val := by
  rw [List.mem_append]
  rintro (h | h)
  · unfold Literal.sign at h
    split at h
    · exact hdash (List.mem_singleton.mp h)
    · cases h
  · exact n.not_mem hdigit h

theorem cast_signed (negative : Bool) (k : Nat) :
    (Literal.signed negative k : Rat) = if negative then -(k : Rat) else k := by
  cases negative with
  | false => rfl
  | true => simp [Literal.signed]

theorem read_whole (negative : Bool) (n : Numeral) :
    read (Literal.mk negative (.whole n)).text = (Literal.mk negative (.whole n)).outcome := by
  have hwhole : cut wholeMark (Literal.sign negative ++ n.val) = none :=
    cut_eq_none (not_mem_sign_append negative n (by decide) (by decide))
  have hslash : cut '/' (Literal.sign negative ++ n.val) = none :=
    cut_eq_none (not_mem_sign_append negative n (by decide) (by decide))
  simp only [Literal.text, Literal.Shape.text, read, hwhole, hslash, readSigned_sign]
  refine bind_part (by simp [Literal.Shape.numerals]) fun hn => ?_
  have hsigned : (Literal.signed negative n.value).natAbs ≤ maxPart := by
    rwa [natAbs_signed]
  have hfits : (Literal.Shape.whole n).Fits := by
    simpa [Literal.Shape.Fits, Literal.Shape.numerals] using hn
  rw [Literal.outcome_of_fits hfits, ofInt_of_le hsigned, cast_signed]
  rfl

theorem read_quotient (negative : Bool) (top bottom : Numeral) :
    read (Literal.mk negative (.quotient top bottom)).text =
      (Literal.mk negative (.quotient top bottom)).outcome := by
  have htext : (Literal.mk negative (.quotient top bottom)).text =
      (Literal.sign negative ++ top.val) ++ '/' :: bottom.val := by
    simp [Literal.text, Literal.Shape.text]
  have hwhole : cut wholeMark ((Literal.sign negative ++ top.val) ++ '/' :: bottom.val) = none := by
    apply cut_eq_none
    rw [List.mem_append, List.mem_cons]
    rintro (h | h | h)
    · exact not_mem_sign_append negative top (by decide) (by decide) h
    · cases h
    · exact bottom.not_mem (by decide) h
  have hslash : cut '/' ((Literal.sign negative ++ top.val) ++ '/' :: bottom.val) =
      some (Literal.sign negative ++ top.val, bottom.val) :=
    cut_append (not_mem_sign_append negative top (by decide) (by decide)) bottom.val
  rw [htext]
  simp only [read, hwhole, hslash, readSigned_sign, readUnsigned_numeral]
  refine bind_part (by simp [Literal.Shape.numerals]) fun ht => ?_
  refine bind_part (by simp [Literal.Shape.numerals]) fun hb => ?_
  have hsigned : (Literal.signed negative top.value).natAbs ≤ maxPart := by
    rwa [natAbs_signed]
  have hfits : (Literal.Shape.quotient top bottom).Fits := by
    simpa [Literal.Shape.Fits, Literal.Shape.numerals] using ⟨ht, hb⟩
  rw [Literal.outcome_of_fits hfits, ofParts_of_le hsigned hb, cast_signed]
  cases negative with
  | false => rfl
  | true =>
    simp only [if_true, Literal.value, Literal.Shape.size, Literal.Shape.denominator, neg_div]

theorem natCast_div_eq_divInt (n d : Nat) : (n : Rat) / d = Rat.divInt n d := by
  rw [Rat.divInt_eq_div]
  rfl

theorem natAbs_num_div_le (n : Nat) {d : Nat} (hd : d ≠ 0) : ((n : Rat) / d).num.natAbs ≤ n := by
  rw [natCast_div_eq_divInt]
  exact natAbs_num_divInt_le n (Int.natCast_ne_zero.mpr hd)

theorem den_div_le (n : Nat) {d : Nat} (hd : d ≠ 0) : ((n : Rat) / d).den ≤ d := by
  rw [natCast_div_eq_divInt]
  exact den_divInt_le n (Int.natCast_ne_zero.mpr hd)

theorem ofParts_natCast {n d : Nat} (hn : n ≤ maxPart) (hd : d ≤ maxPart) (hd0 : d ≠ 0) :
    ∃ a : Fraction, ofParts n d = .ok a ∧ a.value = (n : Rat) / d := by
  have hnum : ((n : Rat) / d).num.natAbs ≤ maxPart := (natAbs_num_div_le n hd0).trans hn
  have hden : ((n : Rat) / d).den ≤ maxPart := (den_div_le n hd0).trans hd
  refine ⟨⟨(n : Rat) / d, hnum, hden⟩, ?_, rfl⟩
  rw [ofParts_of_le (by rwa [Int.natAbs_natCast]) hd, if_neg hd0]
  exact ofRat_value ⟨(n : Rat) / d, hnum, hden⟩

theorem ofInt_natCast {n : Nat} (hn : n ≤ maxPart) :
    ∃ a : Fraction, ofInt n = .ok a ∧ a.value = n := by
  obtain ⟨a, ha, hvalue⟩ := ofParts_natCast (d := 1) hn (by decide) one_ne_zero
  exact ⟨a, ha, by rw [hvalue, Nat.cast_one, div_one]⟩

theorem head?_sign_append (negative : Bool) {s : Text}
    (h : ∃ c rest, s = c :: rest ∧ c.isDigit = true) :
    (Literal.sign negative ++ s).head? = some '-' ↔ negative = true := by
  cases negative with
  | true => simp [Literal.sign]
  | false =>
    obtain ⟨c, rest, rfl, hc⟩ := h
    simp only [Literal.sign, Bool.false_eq_true, if_false, List.nil_append, List.head?_cons,
      Option.some.injEq, iff_false]
    rintro rfl
    cases hc

/-- What the reader does with the three parts of a mixed number, once they fit. -/
theorem joinMixed_eq (negative : Bool) {w n d : Nat} (hw : w ≤ maxPart) (hn : n ≤ maxPart)
    (hd : d ≤ maxPart) :
    (do
      let size ← (← ofInt (Literal.signed negative w).natAbs).add (← ofParts n d)
      return if negative = true then size.neg else size) =
      if d = 0 then .error .divisionByZero
      else ofRat (if negative then -(w + (n : Rat) / d) else w + (n : Rat) / d) := by
  obtain ⟨a, ha, havalue⟩ := ofInt_natCast hw
  rw [natAbs_signed, ha, Fault.ok_bind]
  by_cases hzero : d = 0
  · rw [ofParts_of_le (by rwa [Int.natAbs_natCast]) hd, if_pos hzero, if_pos hzero]
    rfl
  obtain ⟨b, hb, hbvalue⟩ := ofParts_natCast hn hd hzero
  have hbnum : 0 ≤ b.num := by
    rw [num, hbvalue]
    exact Rat.num_nonneg.mpr (div_nonneg n.cast_nonneg d.cast_nonneg)
  rw [hb, Fault.ok_bind, if_neg hzero, add_whole havalue hbnum, havalue, hbvalue]
  cases negative with
  | false => exact bind_pure _
  | true =>
    rw [if_pos rfl, ofRat_neg]
    rfl

theorem read_mixed (negative : Bool) (w top bottom : Numeral) :
    read (Literal.mk negative (.mixed w top bottom)).text =
      (Literal.mk negative (.mixed w top bottom)).outcome := by
  have htext : (Literal.mk negative (.mixed w top bottom)).text =
      (Literal.sign negative ++ w.val) ++ wholeMark :: (top.val ++ '/' :: bottom.val) := by
    simp [Literal.text, Literal.Shape.text]
  have hwhole : cut wholeMark
      ((Literal.sign negative ++ w.val) ++ wholeMark :: (top.val ++ '/' :: bottom.val)) =
      some (Literal.sign negative ++ w.val, top.val ++ '/' :: bottom.val) :=
    cut_append (not_mem_sign_append negative w (by decide) (by decide)) _
  have hslash : cut '/' (top.val ++ '/' :: bottom.val) = some (top.val, bottom.val) :=
    cut_append (top.not_mem (by decide)) bottom.val
  rw [htext]
  simp only [read, hwhole, readMixed, hslash, readSigned_sign, readUnsigned_numeral,
    head?_sign_append negative w.exists_cons]
  refine bind_part (by simp [Literal.Shape.numerals]) fun hw => ?_
  refine bind_part (by simp [Literal.Shape.numerals]) fun ht => ?_
  refine bind_part (by simp [Literal.Shape.numerals]) fun hb => ?_
  have hfits : (Literal.Shape.mixed w top bottom).Fits := by
    simpa [Literal.Shape.Fits, Literal.Shape.numerals] using ⟨hw, ht, hb⟩
  rw [Literal.outcome_of_fits hfits, joinMixed_eq negative hw ht hb]
  rfl

/-- The reader on the text of any literal. -/
theorem read_text (l : Literal) : read l.text = l.outcome := by
  obtain ⟨negative, shape⟩ := l
  cases shape with
  | whole n => exact read_whole negative n
  | quotient top bottom => exact read_quotient negative top bottom
  | mixed w top bottom => exact read_mixed negative w top bottom

theorem fits_shape (a : Fraction) : a.shape.Fits := by
  have hnum : a.num.natAbs ≤ maxPart := a.num_le
  have hden : a.den ≤ maxPart := a.den_le
  unfold shape
  split
  · simpa [Literal.Shape.Fits, Literal.Shape.numerals] using hnum
  · split
    · have hquot : a.num.natAbs / a.den ≤ maxPart := (Nat.div_le_self _ _).trans hnum
      have hmod : a.num.natAbs % a.den ≤ maxPart := (Nat.mod_le _ _).trans hnum
      simpa [Literal.Shape.Fits, Literal.Shape.numerals] using ⟨hquot, hmod, hden⟩
    · simpa [Literal.Shape.Fits, Literal.Shape.numerals] using ⟨hnum, hden⟩

theorem denominator_shape (a : Fraction) : a.shape.denominator ≠ 0 := by
  have hden : a.den ≠ 0 := a.value.den_nz
  unfold shape
  split
  · exact one_ne_zero
  · split <;> simpa [Literal.Shape.denominator] using hden

/-- Every written fraction reads back as itself. -/
theorem read_render (a : Fraction) : read a.render = .ok a := by
  have hfits : a.literal.shape.Fits := a.fits_shape
  have hden : a.literal.shape.denominator ≠ 0 := a.denominator_shape
  rw [← text_literal, read_text, Literal.outcome_of_fits hfits, if_neg hden, value_literal]
  exact ofRat_value a

/-- Only the form of a part is quoted, so a part that is not has the form of a numeral. -/
theorem exists_numeral_of_ne_malformed {whole part : Text}
    (h : readUnsigned whole part ≠ .error (.malformedNumber whole)) :
    ∃ n : Numeral, n.val = part := by
  by_cases hform : isNumeral part = true
  · exact ⟨⟨part, hform⟩, rfl⟩
  · refine absurd ?_ h
    rw [readUnsigned, if_pos (by simpa using hform)]

theorem exists_signed_of_ne_malformed {whole part : Text}
    (h : readSigned whole part ≠ .error (.malformedNumber whole)) :
    ∃ (negative : Bool) (n : Numeral), Literal.sign negative ++ n.val = part := by
  unfold readSigned at h
  split at h
  · obtain ⟨n, hn⟩ := exists_numeral_of_ne_malformed (Fault.ne_error_of_bind h)
    exact ⟨true, n, by rw [hn]; rfl⟩
  · obtain ⟨n, hn⟩ := exists_numeral_of_ne_malformed h
    exact ⟨false, n, hn⟩

theorem exists_numeral_of_readUnsigned {whole part : Text} {k : Int}
    (h : readUnsigned whole part = .ok k) : ∃ n : Numeral, n.val = part :=
  exists_numeral_of_ne_malformed (by rw [h]; nofun)

theorem exists_numeral_of_readSigned {whole part : Text} {k : Int}
    (h : readSigned whole part = .ok k) :
    ∃ (negative : Bool) (n : Numeral), Literal.sign negative ++ n.val = part :=
  exists_signed_of_ne_malformed (by rw [h]; nofun)

theorem fault_of_readUnsigned {whole part : Text} {fault : Fault}
    (h : readUnsigned whole part = .error fault) :
    fault = .malformedNumber whole ∨ fault.IsArithmetic := by
  unfold readUnsigned at h
  split at h
  · cases h
    exact .inl rfl
  · split at h
    · cases h
      exact .inr (.inr rfl)
    · cases h

theorem fault_of_readSigned {whole part : Text} {fault : Fault}
    (h : readSigned whole part = .error fault) :
    fault = .malformedNumber whole ∨ fault.IsArithmetic := by
  unfold readSigned at h
  split at h
  · rcases Fault.bind_eq_error_iff.mp h with h | ⟨k, -, h⟩
    · exact fault_of_readUnsigned h
    · cases h
  · exact fault_of_readUnsigned h

theorem fault_of_readMixed {s whole proper : Text} {fault : Fault}
    (h : readMixed s whole proper = .error fault) :
    fault = .malformedNumber s ∨ fault.IsArithmetic := by
  unfold readMixed at h
  split at h
  · cases h
    exact .inl rfl
  · simp only [Fault.bind_eq_error_iff] at h
    rcases h with h | ⟨w, -, h | ⟨n, -, h | ⟨d, -, h | ⟨a, -, h | ⟨b, -, h | ⟨size, -, h⟩⟩⟩⟩⟩⟩
    · exact fault_of_readSigned h
    · exact fault_of_readUnsigned h
    · exact fault_of_readUnsigned h
    · exact .inr (fault_of_ofParts h)
    · exact .inr (fault_of_ofParts h)
    · exact .inr (.inr (fault_of_joinNums h))
    · cases h

/-- The reader fails by arithmetic, or it quotes the whole text. -/
theorem fault_of_read {s : Text} {fault : Fault} (h : read s = .error fault) :
    fault = .malformedNumber s ∨ fault.IsArithmetic := by
  unfold read at h
  split at h
  · exact fault_of_readMixed h
  · split at h
    · simp only [Fault.bind_eq_error_iff] at h
      rcases h with h | ⟨n, -, h | ⟨d, -, h⟩⟩
      · exact fault_of_readSigned h
      · exact fault_of_readUnsigned h
      · exact .inr (fault_of_ofParts h)
    · rcases Fault.bind_eq_error_iff.mp h with h | ⟨n, -, h⟩
      · exact fault_of_readSigned h
      · exact .inr (fault_of_ofParts h)

theorem exists_literal_of_readMixed {s whole proper : Text} {a : Fraction}
    (h : readMixed s whole proper = .ok a) :
    ∃ l : Literal, l.text = whole ++ wholeMark :: proper := by
  unfold readMixed at h
  split at h
  · cases h
  · rename_i top bottom hcut
    obtain ⟨w, hw, h⟩ := Fault.bind_eq_ok_iff.mp h
    obtain ⟨n, hn, h⟩ := Fault.bind_eq_ok_iff.mp h
    obtain ⟨d, hd, -⟩ := Fault.bind_eq_ok_iff.mp h
    obtain ⟨negative, w, rfl⟩ := exists_numeral_of_readSigned hw
    obtain ⟨top, rfl⟩ := exists_numeral_of_readUnsigned hn
    obtain ⟨bottom, rfl⟩ := exists_numeral_of_readUnsigned hd
    refine ⟨⟨negative, .mixed w top bottom⟩, ?_⟩
    rw [cut_eq_some hcut]
    simp [Literal.text, Literal.Shape.text]

/-- A text that is read as a number is the text of a literal. -/
theorem exists_literal_of_read {s : Text} {a : Fraction} (h : read s = .ok a) :
    ∃ l : Literal, l.text = s := by
  unfold read at h
  split at h
  · rename_i whole proper hcut
    rw [cut_eq_some hcut]
    exact exists_literal_of_readMixed h
  · split at h
    · rename_i top bottom hcut
      obtain ⟨n, hn, h⟩ := Fault.bind_eq_ok_iff.mp h
      obtain ⟨d, hd, -⟩ := Fault.bind_eq_ok_iff.mp h
      obtain ⟨negative, top, rfl⟩ := exists_numeral_of_readSigned hn
      obtain ⟨bottom, rfl⟩ := exists_numeral_of_readUnsigned hd
      refine ⟨⟨negative, .quotient top bottom⟩, ?_⟩
      rw [cut_eq_some hcut]
      simp [Literal.text, Literal.Shape.text]
    · obtain ⟨n, hn, -⟩ := Fault.bind_eq_ok_iff.mp h
      obtain ⟨negative, n, rfl⟩ := exists_numeral_of_readSigned hn
      exact ⟨⟨negative, .whole n⟩, rfl⟩

end Fraction
end FractionDrill
