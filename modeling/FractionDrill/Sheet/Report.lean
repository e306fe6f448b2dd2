import FractionDrill.Exercise.Grading

/-!
# Grading reports

A report has one line for the correct answers and one for the wrong ones, each
with their count and their numbers.
-/
namespace FractionDrill.Report
open Text

def list (numbers : List Nat) : Text := [',', ' '].intercalate (numbers.map natural)

def line (label : Text) (numbers : List Nat) : Text :=
  label ++ ": ".toList ++ natural numbers.length ++ " (".toList ++ list numbers ++ ")\n".toList

def render (correct wrong : List Nat) : Text :=
  line "Correct".toList correct ++ line "Wrong".toList wrong

def ofGrading (g : Grading) : Text := render g.correct g.wrong

end FractionDrill.Report
