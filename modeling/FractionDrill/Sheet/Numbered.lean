import FractionDrill.Exercise.Batch
import FractionDrill.Exercise.Grading

/-!
# Numbered sheets

A sheet has one line `n. text` for each of its entries. Sheets are written with
the numbers 1, 2, 3 and so on. A sheet that is read may have any positive
numbers in any order, blank lines, byte order marks at its start, and lines that
end in a carriage return and a line feed; but every line that is not blank must
carry a number.
-/
namespace FractionDrill.Sheet
open Text

/-- The lines with consecutive numbers from the given one on. -/
def writeFrom : Nat → List Text → Text
  | _, [] => []
  | k, t :: rest => natural k ++ '.' :: ' ' :: t ++ '\n' :: writeFrom (k + 1) rest

def write (texts : List Text) : Text := writeFrom 1 texts

def ofStatements (batch : List Problem) : Text := write (batch.map Problem.statement)

def ofAnswers (batch : List Problem) : Text := write (batch.map Problem.answer)

/-- The largest number of a line. -/
def maxNumber : Nat := 0xffffffffffffffff

/-- Divides a line at its first dot. One space after the dot belongs to neither part. -/
def entry? (line : Text) : Option Entry := do
  let (number, text) ← cut '.' line
  let k ← natural? maxNumber (trim number)
  if k = 0 then none else some (k, dropMark ' ' text)

def dropReturn (line : Text) : Text :=
  if line.getLast? = some '\r' then line.dropLast else line

/-- The lines of a text. A carriage return belongs to the end of its line only where
a line feed follows it, and no empty line stands after the last line feed. -/
def lines (s : Text) : List Text :=
  if s.isEmpty then []
  else
    match _h : cut '\n' s with
    | none => [s]
    | some (line, rest) => dropReturn line :: lines rest
termination_by s.length
decreasing_by exact length_of_cut ‹_›

/-- A line without a number, and its place in the sheet, where blank lines count. -/
structure Unnumbered where
  place : Nat
  line : Text
deriving DecidableEq, Repr

/-- The entries of the lines that are not blank; the first line is at the given place. -/
def entriesFrom : Nat → List Text → Except Unnumbered (List Entry)
  | _, [] => .ok []
  | k, line :: rest =>
      if line.all isBlank then entriesFrom (k + 1) rest
      else
        match entry? line with
        | none => .error ⟨k, line⟩
        | some entry => do return entry :: (← entriesFrom (k + 1) rest)

def byteOrderMark : Char := '\ufeff'

def read (s : Text) : Except Unnumbered (List Entry) :=
  entriesFrom 1 (lines (s.dropWhile (· == byteOrderMark)))

end FractionDrill.Sheet
