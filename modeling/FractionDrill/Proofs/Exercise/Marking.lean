import FractionDrill.Proofs.Exercise.Grading
import Mathlib.Data.List.Induction
import Mathlib.Data.List.Perm.Subperm

/-!
# What a grading depends on

Every exercise has one mark and one outcome: its number is among the correct ones or
the wrong ones, and it has a failure or a working, whatever numbers come twice or are
missing. Of the answers to a number only the last is read. So answers to other numbers
change nothing, and neither does another order of the answers that keeps those to each
number in their order. The marks do not depend on the order of the exercises either.
-/
namespace FractionDrill

namespace Grading
open Text

variable {exercises answers others : List Entry}

/-- The answers with the number, in their order. -/
def answersTo (answers : List Entry) (k : Nat) : List Entry :=
  answers.filter fun answer => answer.1 == k

/-- The lists of a grading. The marks are the numbers of the exercises, sorted and as often as
they occur; the outcomes stand in the order of the exercises. -/
structure Describes (exercises answers : List Entry) (g : Grading) : Prop where
  correct_ascending : g.correct.Pairwise (· ≤ ·)
  correct_perm : g.correct.Perm ((exercises.filter (isCorrect answers)).map Prod.fst)
  wrong_ascending : g.wrong.Pairwise (· ≤ ·)
  wrong_perm : g.wrong.Perm ((exercises.filter (!isCorrect answers ·)).map Prod.fst)
  failures_eq : g.failures = exercises.filterMap failure?
  workings_eq : g.workings = exercises.filterMap working?

theorem grade_describes (exercises answers : List Entry) :
    Describes exercises answers (grade exercises answers) := by
  rw [grade_eq]
  constructor
  · exact List.pairwise_mergeSort' (· ≤ ·) _
  · exact List.mergeSort_perm _ _
  · exact List.pairwise_mergeSort' (· ≤ ·) _
  · exact List.mergeSort_perm _ _
  · rfl
  · rfl

theorem isCorrect_iff {exercise : Entry} :
    isCorrect answers exercise = true ↔ ∃ v working,
      Expr.evaluate (Problem.question exercise.2) = .ok (v, working) ∧
        answerTo answers exercise.1 = some v.render := by
  unfold isCorrect
  cases Expr.evaluate (Problem.question exercise.2) with
  | error fault => simp
  | ok result => simp [Prod.ext_iff]

/-- An exercise has either a failure or a working. -/
theorem isSome_failure?_eq (exercise : Entry) :
    (failure? exercise).isSome = !(working? exercise).isSome := by
  unfold failure? working?
  cases Expr.evaluate (Problem.question exercise.2) <;> rfl

theorem isCorrect_of_failure? {exercise : Entry} (h : (failure? exercise).isSome = true) :
    isCorrect answers exercise = false := by
  unfold failure? at h
  unfold isCorrect
  cases hevaluate : Expr.evaluate (Problem.question exercise.2) with
  | error fault => rfl
  | ok result =>
    rw [hevaluate] at h
    cases h

/-- Outcomes that carry the numbers of their exercises have the numbers of those with an outcome. -/
theorem map_fst_filterMap {α : Type} {outcome? : Entry → Option (Nat × α)}
    (h : ∀ exercise outcome, outcome? exercise = some outcome → outcome.1 = exercise.1)
    (exercises : List Entry) :
    (exercises.filterMap outcome?).map Prod.fst =
      (exercises.filter fun exercise => (outcome? exercise).isSome).map Prod.fst := by
  induction exercises with
  | nil => rfl
  | cons exercise rest ih =>
    cases houtcome : outcome? exercise with
    | none => simpa [houtcome] using ih
    | some outcome => simpa [houtcome, h exercise outcome houtcome] using ih

theorem map_fst_failures (exercises : List Entry) :
    (exercises.filterMap failure?).map Prod.fst =
      (exercises.filter fun exercise => (failure? exercise).isSome).map Prod.fst := by
  refine map_fst_filterMap ?_ exercises
  intro exercise outcome h
  unfold failure? at h
  split at h
  · cases h
    rfl
  · cases h

theorem map_fst_workings (exercises : List Entry) :
    (exercises.filterMap working?).map Prod.fst =
      (exercises.filter fun exercise => (working? exercise).isSome).map Prod.fst := by
  refine map_fst_filterMap ?_ exercises
  intro exercise outcome h
  unfold working? at h
  split at h
  · cases h
  · cases h
    rfl

namespace Describes

variable {g : Grading}

theorem marks_perm (h : Describes exercises answers g) :
    (g.correct ++ g.wrong).Perm (exercises.map Prod.fst) := by
  have hsplit := (List.filter_append_perm (isCorrect answers) exercises).map Prod.fst
  rw [List.map_append] at hsplit
  exact (h.correct_perm.append h.wrong_perm).trans hsplit

theorem outcomes_perm (h : Describes exercises answers g) :
    (g.failures.map Prod.fst ++ g.workings.map Prod.fst).Perm (exercises.map Prod.fst) := by
  have hsplit := (List.filter_append_perm (fun exercise => (working? exercise).isSome)
    exercises).map Prod.fst
  rw [List.map_append] at hsplit
  rw [h.failures_eq, h.workings_eq, map_fst_failures, map_fst_workings]
  simp only [isSome_failure?_eq]
  exact List.perm_append_comm.trans hsplit

theorem failures_subperm (h : Describes exercises answers g) :
    (g.failures.map Prod.fst).Subperm g.wrong := by
  have hsublist : (exercises.filter fun exercise => (failure? exercise).isSome).Sublist
      (exercises.filter (!isCorrect answers ·)) := by
    refine List.monotone_filter_right exercises fun exercise hfailure => ?_
    rw [isCorrect_of_failure? hfailure]
    rfl
  rw [h.failures_eq, map_fst_failures]
  exact (hsublist.map Prod.fst).subperm.trans h.wrong_perm.symm.subperm

end Describes

/-- The last answer to a number decides. -/
theorem answerTo_eq (answers : List Entry) (k : Nat) :
    answerTo answers k = (answersTo answers k).getLast?.map fun answer => trim answer.2 := by
  induction answers using List.reverseRecOn with
  | nil => rfl
  | append_singleton answers last ih =>
    obtain ⟨n, t⟩ := last
    rw [answerTo, answersTo] at *
    rw [List.reverse_append, List.reverse_singleton, List.singleton_append, List.lookup_cons,
      List.filter_append]
    by_cases hk : k = n
    · simp [hk]
    · have hkey : (k == n) = false := beq_eq_false_iff_ne.mpr hk
      simpa [hkey, Ne.symm hk] using ih

/-- Only the answers to the numbers of the exercises are read. -/
theorem grade_congr
    (h : ∀ k ∈ exercises.map Prod.fst, answersTo others k = answersTo answers k) :
    grade exercises others = grade exercises answers := by
  have hcorrect : ∀ exercise ∈ exercises, isCorrect others exercise = isCorrect answers exercise := by
    intro exercise hmem
    have hanswers := h exercise.1 (List.mem_map_of_mem hmem)
    unfold isCorrect
    rw [answerTo_eq, answerTo_eq, hanswers]
  rw [grade_eq, grade_eq, List.filter_congr hcorrect,
    List.filter_congr fun exercise hmem => congrArg not (hcorrect exercise hmem)]

theorem answersTo_filter_mem {numbers : List Nat} {k : Nat} (hk : k ∈ numbers) :
    answersTo (answers.filter fun answer => answer.1 ∈ numbers) k = answersTo answers k := by
  rw [answersTo, answersTo, List.filter_filter]
  refine List.filter_congr fun answer _ => ?_
  by_cases hkey : answer.1 = k
  · simp [hkey, hk]
  · simp [hkey]

/-- Where no number is answered twice, the answers to one number have one order. -/
theorem answersTo_perm (hnodup : (answers.map Prod.fst).Nodup) (h : others.Perm answers) (k : Nat) :
    answersTo others k = answersTo answers k := by
  have hperm : (answersTo others k).Perm (answersTo answers k) := h.filter _
  have hkeys : ((answersTo answers k).map Prod.fst).Nodup :=
    hnodup.sublist (List.filter_sublist.map Prod.fst)
  have hkey : ∀ answer ∈ answersTo answers k, answer.1 = k := by
    intro answer hmem
    exact beq_iff_eq.mp (List.mem_filter.mp hmem).2
  match hanswers : answersTo answers k with
  | [] =>
    rw [hanswers] at hperm
    exact List.perm_nil.mp hperm
  | [answer] =>
    rw [hanswers] at hperm
    exact List.perm_singleton.mp hperm
  | first :: second :: rest =>
    rw [hanswers] at hkeys hkey
    have hfirst := hkey first List.mem_cons_self
    have hsecond := hkey second (List.mem_cons_of_mem _ List.mem_cons_self)
    simp [hfirst, hsecond] at hkeys

/-- The marks do not depend on the order of the exercises. -/
theorem marks_of_perm (h : others.Perm exercises) :
    (grade others answers).correct = (grade exercises answers).correct ∧
      (grade others answers).wrong = (grade exercises answers).wrong := by
  rw [grade_eq, grade_eq]
  exact ⟨mergeSort_congr ((h.filter _).map _), mergeSort_congr ((h.filter _).map _)⟩

/-- What a grading of any exercises against any answers says, and what it does not depend on. -/
theorem grade_by_exercise (exercises answers : List Entry) :
    Describes exercises answers (grade exercises answers) ∧
    (∀ exercise, isCorrect answers exercise = true ↔ ∃ v working,
      Expr.evaluate (Problem.question exercise.2) = .ok (v, working) ∧
        (answersTo answers exercise.1).getLast?.map (fun answer => trim answer.2) =
          some v.render) ∧
    ((grade exercises answers).correct ++ (grade exercises answers).wrong).Perm
      (exercises.map Prod.fst) ∧
    ((grade exercises answers).failures.map Prod.fst ++
      (grade exercises answers).workings.map Prod.fst).Perm (exercises.map Prod.fst) ∧
    (∀ exercise, (failure? exercise).isSome = !(working? exercise).isSome) ∧
    ((grade exercises answers).failures.map Prod.fst).Subperm (grade exercises answers).wrong ∧
    grade exercises (answers.filter fun answer => answer.1 ∈ exercises.map Prod.fst) =
      grade exercises answers ∧
    (∀ others, (∀ k ∈ exercises.map Prod.fst, answersTo others k = answersTo answers k) →
      grade exercises others = grade exercises answers) ∧
    (∀ others, (answers.map Prod.fst).Nodup → others.Perm answers →
      grade exercises others = grade exercises answers) ∧
    (∀ others, others.Perm exercises →
      (grade others answers).correct = (grade exercises answers).correct ∧
        (grade others answers).wrong = (grade exercises answers).wrong) := by
  have hdescribes := grade_describes exercises answers
  refine ⟨hdescribes, ?_, hdescribes.marks_perm, hdescribes.outcomes_perm, isSome_failure?_eq,
    hdescribes.failures_subperm, ?_, ?_, ?_, ?_⟩
  · intro exercise
    rw [isCorrect_iff, answerTo_eq]
  · exact grade_congr fun k hk => answersTo_filter_mem hk
  · intro others hanswers
    exact grade_congr hanswers
  · intro others hnodup hperm
    exact grade_congr fun k _ => answersTo_perm hnodup hperm k
  · intro others hperm
    exact marks_of_perm hperm

/-- Numbers that come twice, a statement without a value and an answer without an exercise. -/
theorem grade_by_exercise_repeated :
    ∃ exercises answers moved : List Entry,
      exercises = [(7, "(1/2 + 1/3) = ".toList), (2, "(1 ÷ 0) = ".toList),
        (7, "1 + 1 = ".toList), (2, "3 = ".toList)] ∧
      answers = [(7, "2".toList), (9, "8".toList), (2, " 3 ".toList), (7, "5/6".toList)] ∧
      moved = [(2, " 3 ".toList), (7, "2".toList), (7, "5/6".toList)] ∧
      (grade exercises answers).correct.Perm [7, 2] ∧
      (grade exercises answers).wrong.Perm [2, 7] ∧
      (∀ k ∈ exercises.map Prod.fst, answersTo moved k = answersTo answers k) ∧
      grade exercises moved = grade exercises answers ∧
      (answers.tail.map Prod.fst).Nodup ∧ answers.tail.reverse.Perm answers.tail ∧
      grade exercises answers.tail.reverse = grade exercises answers.tail ∧
      exercises.reverse.Perm exercises ∧
      (grade exercises.reverse answers).correct = (grade exercises answers).correct := by
  let exercises : List Entry := [(7, "(1/2 + 1/3) = ".toList), (2, "(1 ÷ 0) = ".toList),
    (7, "1 + 1 = ".toList), (2, "3 = ".toList)]
  let answers : List Entry :=
    [(7, "2".toList), (9, "8".toList), (2, " 3 ".toList), (7, "5/6".toList)]
  let moved : List Entry := [(2, " 3 ".toList), (7, "2".toList), (7, "5/6".toList)]
  obtain ⟨hdescribes, -, -, -, -, -, -, hmoved, -, hexercises⟩ :=
    grade_by_exercise exercises answers
  obtain ⟨-, -, -, -, -, -, -, -, hreversed, -⟩ := grade_by_exercise exercises answers.tail
  have hcorrect : (exercises.filter (isCorrect answers)).map Prod.fst = [7, 2] := by
    decide +kernel
  have hwrong : (exercises.filter (!isCorrect answers ·)).map Prod.fst = [2, 7] := by
    decide +kernel
  have hanswers : ∀ k ∈ exercises.map Prod.fst, answersTo moved k = answersTo answers k := by
    decide
  have hnodup : (answers.tail.map Prod.fst).Nodup := by decide
  exact ⟨exercises, answers, moved, rfl, rfl, rfl, hcorrect ▸ hdescribes.correct_perm,
    hwrong ▸ hdescribes.wrong_perm, hanswers, hmoved moved hanswers, hnodup,
    List.reverse_perm _, hreversed _ hnodup (List.reverse_perm _), List.reverse_perm _,
    (hexercises _ (List.reverse_perm _)).1⟩

end Grading
end FractionDrill
