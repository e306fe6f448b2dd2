import FractionDrill.Exercise.Grading
import Mathlib.Data.List.Sort
import Std.Data.HashMap.Lemmas

/-!
# What a grading contains

One pass over the exercises fills four lists. Each of them is described here by
the exercises it takes: an exercise is correct or wrong, and apart from that it
has a failure or a working. Of the answers only the last one to each number
counts, and the numbers are sorted whatever the order of the exercises.
-/
namespace FractionDrill

namespace Grading
open Text

/-- The trimmed text of the last answer with the number. -/
def answerTo (answers : List Entry) (k : Nat) : Option Text :=
  (answers.reverse.lookup k).map trim

/-- Whether a statement has a value and the answer with its number is the written value. -/
def isCorrect (answers : List Entry) (exercise : Entry) : Bool :=
  match Expr.evaluate (Problem.question exercise.2) with
  | .error _ => false
  | .ok (v, _) => answerTo answers exercise.1 = some v.render

def failure? (exercise : Entry) : Option (Nat × Fault) :=
  match Expr.evaluate (Problem.question exercise.2) with
  | .error fault => some (exercise.1, fault)
  | .ok _ => none

def working? (exercise : Entry) : Option (Nat × Working) :=
  match Expr.evaluate (Problem.question exercise.2) with
  | .error _ => none
  | .ok (_, working) => some (exercise.1, working)

/-- Later answers to a number replace earlier ones. -/
theorem getElem?_foldl_insert (answers : List Entry) (table : Std.HashMap Nat Text) (k : Nat) :
    (answers.foldl (fun table entry => table.insert entry.1 (trim entry.2)) table)[k]? =
      (answerTo answers k).or table[k]? := by
  induction answers generalizing table with
  | nil => rfl
  | cons answer rest ih =>
    obtain ⟨n, t⟩ := answer
    rw [List.foldl_cons, ih, answerTo, answerTo, List.reverse_cons, List.lookup_append]
    cases List.lookup k rest.reverse with
    | some last => rfl
    | none =>
      by_cases hk : k = n
      · simp [hk]
      · have hkey : (k == n) = false := beq_eq_false_iff_ne.mpr hk
        simp [Std.HashMap.getElem?_insert, List.lookup_cons, Ne.symm hk, hkey]

theorem getElem?_answerTable (answers : List Entry) (k : Nat) :
    (answerTable answers)[k]? = answerTo answers k := by
  rw [answerTable, getElem?_foldl_insert, Std.HashMap.getElem?_empty, Option.or_none]

/-- Where no number is answered twice, every answer counts. -/
theorem answerTo_of_mem {answers : List Entry} (hnodup : (answers.map Prod.fst).Nodup) {k : Nat}
    {t : Text} (h : (k, t) ∈ answers) : answerTo answers k = some (trim t) := by
  obtain ⟨before, after, rfl⟩ := List.append_of_mem h
  rw [List.map_append, List.map_cons, List.nodup_append] at hnodup
  have hk : k ∉ after.map Prod.fst := (List.nodup_cons.mp hnodup.2.1).1
  have hafter : after.reverse.lookup k = none := by
    rw [List.lookup_eq_none_iff]
    intro entry hentry
    have hmem : entry.1 ∈ after.map Prod.fst :=
      List.mem_map_of_mem (List.mem_reverse.mp hentry)
    rw [bne_iff_ne]
    exact fun heq => hk (heq ▸ hmem)
  rw [answerTo, List.reverse_append, List.reverse_cons, List.append_assoc, List.lookup_append,
    hafter]
  simp

/-- What one exercise adds to a grading. -/
theorem mark_eq (answers : List Entry) (g : Grading) (exercise : Entry) :
    mark (answerTable answers) g exercise =
      { correct := if isCorrect answers exercise then exercise.1 :: g.correct else g.correct
        wrong := if isCorrect answers exercise then g.wrong else exercise.1 :: g.wrong
        failures := (failure? exercise).toList ++ g.failures
        workings := (working? exercise).toList ++ g.workings } := by
  obtain ⟨k, statement⟩ := exercise
  cases hevaluate : Expr.evaluate (Problem.question statement) with
  | error fault => simp [mark, isCorrect, failure?, working?, hevaluate]
  | ok result =>
    by_cases hanswer : answerTo answers k = some result.1.render
    · simp [mark, isCorrect, failure?, working?, getElem?_answerTable, hevaluate, hanswer]
    · simp [mark, isCorrect, failure?, working?, getElem?_answerTable, hevaluate, hanswer]

theorem foldl_mark (answers exercises : List Entry) (g : Grading) :
    exercises.foldl (mark (answerTable answers)) g =
      { correct := ((exercises.filter (isCorrect answers)).map Prod.fst).reverse ++ g.correct
        wrong := ((exercises.filter (!isCorrect answers ·)).map Prod.fst).reverse ++ g.wrong
        failures := (exercises.filterMap failure?).reverse ++ g.failures
        workings := (exercises.filterMap working?).reverse ++ g.workings } := by
  induction exercises generalizing g with
  | nil => rfl
  | cons exercise rest ih =>
    rw [List.foldl_cons, ih, mark_eq]
    simp only [List.filter_cons, List.filterMap_cons]
    congr 1
    · cases isCorrect answers exercise <;> simp
    · cases isCorrect answers exercise <;> simp
    · cases failure? exercise <;> simp
    · cases working? exercise <;> simp

/-- Sorted numbers do not depend on the order in which they came. -/
theorem mergeSort_congr {numbers others : List Nat} (h : numbers.Perm others) :
    numbers.mergeSort = others.mergeSort := by
  have hperm : numbers.mergeSort.Perm others.mergeSort :=
    (List.mergeSort_perm numbers _).trans (h.trans (List.mergeSort_perm others _).symm)
  exact hperm.eq_of_pairwise' (List.pairwise_mergeSort' (· ≤ ·) numbers)
    (List.pairwise_mergeSort' (· ≤ ·) others)

/-- The four lists of a grading, by the exercises that they take. -/
theorem grade_eq (exercises answers : List Entry) :
    grade exercises answers =
      { correct := ((exercises.filter (isCorrect answers)).map Prod.fst).mergeSort
        wrong := ((exercises.filter (!isCorrect answers ·)).map Prod.fst).mergeSort
        failures := exercises.filterMap failure?
        workings := exercises.filterMap working? } := by
  rw [grade, foldl_mark, arrange]
  simp only [List.append_nil, List.reverse_reverse]
  rw [mergeSort_congr (List.reverse_perm _), mergeSort_congr (List.reverse_perm _)]

/-- Where every exercise is correct, nothing is wrong and nothing fails. -/
theorem grade_of_forall_isCorrect {exercises answers : List Entry}
    (h : ∀ exercise ∈ exercises, isCorrect answers exercise = true) :
    grade exercises answers =
      { correct := (exercises.map Prod.fst).mergeSort
        workings := exercises.filterMap working? } := by
  have hcorrect : exercises.filter (isCorrect answers) = exercises := List.filter_eq_self.mpr h
  have hwrong : exercises.filter (!isCorrect answers ·) = [] := by
    rw [List.filter_eq_nil_iff]
    intro exercise hmem
    rw [h exercise hmem]
    decide
  have hfailures : exercises.filterMap failure? = [] := by
    rw [List.filterMap_eq_nil_iff]
    intro exercise hmem
    have hmark := h exercise hmem
    unfold isCorrect at hmark
    unfold failure?
    split at hmark
    · cases hmark
    · rename_i hevaluate
      rw [hevaluate]
  rw [grade_eq, hcorrect, hwrong, hfailures, List.map_nil, List.mergeSort_nil]

end Grading
end FractionDrill
