import FractionDrill.Fraction.Arithmetic

/-!
# Written fractions

A whole number is written as such, a fraction of size below one as `n/d`, and
any other as a mixed number `w'n/d` whose sign stands on the whole part. A
reader accepts the same three shapes, also with parts that are not reduced and
with leading zeros. It checks the parts from left to right, so the first bad
part decides the fault.
-/
namespace FractionDrill.Fraction
open Text

/-- The mark between the whole part and the proper part of a mixed number. -/
def wholeMark : Char := '\x27'

def render (a : Fraction) : Text :=
  if a.den = 1 then integer a.num
  else if a.den < a.num.natAbs then
    integer (a.num.tdiv a.den) ++ wholeMark ::
      natural (a.num.tmod a.den).natAbs ++ '/' :: natural a.den
  else integer a.num ++ '/' :: natural a.den

/-- Reads an unsigned part of the number `whole`, which is quoted if the part is no numeral. -/
def readUnsigned (whole part : Text) : Except Fault Int :=
  if !isNumeral part then .error (.malformedNumber whole)
  else if maxPart < numeralValue part then .error .overflow
  else .ok (numeralValue part)

/-- Reads a part that may start with a minus sign. -/
def readSigned (whole : Text) : Text → Except Fault Int
  | '-' :: part => do return -(← readUnsigned whole part)
  | part => readUnsigned whole part

/-- Reads a mixed number: the minus sign of the whole part is the sign of all of it. -/
def readMixed (s whole proper : Text) : Except Fault Fraction :=
  match cut '/' proper with
  | none => .error (.malformedNumber s)
  | some (top, bottom) => do
      let w ← readSigned s whole
      let n ← readUnsigned s top
      let d ← readUnsigned s bottom
      let size ← (← ofInt w.natAbs).add (← ofParts n d)
      return if whole.head? = some '-' then size.neg else size

def read (s : Text) : Except Fault Fraction :=
  match cut wholeMark s with
  | some (whole, proper) => readMixed s whole proper
  | none =>
      match cut '/' s with
      | some (top, bottom) => do
          let n ← readSigned s top
          let d ← readUnsigned s bottom
          ofParts n d
      | none => do ofInt (← readSigned s s)

end FractionDrill.Fraction
