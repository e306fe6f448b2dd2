import FractionDrill.Exercise.Problem
import FractionDrill.Expr.Evaluation
import Std.Data.HashMap

/-!
# Grading

Every statement is evaluated anew from its text, and the written value is
compared with the answer that carries the same number. The comparison is one of
texts, so `3/2` is wrong where `1'1/2` is expected. Where several answers carry
one number, the last of them counts. A statement that cannot be evaluated is
counted as wrong.
-/
namespace FractionDrill

/-- A numbered line of a sheet. -/
abbrev Entry := Nat × Text

structure Grading where
  correct : List Nat := []
  wrong : List Nat := []
  /-- The statements without a value, with the reason. -/
  failures : List (Nat × Fault) := []
  workings : List (Nat × Working) := []
deriving DecidableEq

namespace Grading

/-- The trimmed text of the last answer to each number. -/
def answerTable (answers : List Entry) : Std.HashMap Nat Text :=
  answers.foldl (fun table entry => table.insert entry.1 (Text.trim entry.2)) ∅

/-- Adds one exercise to a grading whose lists have the latest exercise first. -/
def mark (table : Std.HashMap Nat Text) (g : Grading) (exercise : Entry) : Grading :=
  let (k, statement) := exercise
  match Expr.evaluate (Problem.question statement) with
  | .error fault => { g with wrong := k :: g.wrong, failures := (k, fault) :: g.failures }
  | .ok (v, working) =>
      let g := { g with workings := (k, working) :: g.workings }
      if table[k]? = some v.render then { g with correct := k :: g.correct }
      else { g with wrong := k :: g.wrong }

/-- The numbers in ascending order, the other lists in the order of the exercises. -/
def arrange (g : Grading) : Grading where
  correct := g.correct.mergeSort
  wrong := g.wrong.mergeSort
  failures := g.failures.reverse
  workings := g.workings.reverse

end Grading

def grade (exercises answers : List Entry) : Grading :=
  (exercises.foldl (Grading.mark (Grading.answerTable answers)) {}).arrange

end FractionDrill
