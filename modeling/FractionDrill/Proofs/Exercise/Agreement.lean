import FractionDrill.Proofs.Exercise.Batch
import FractionDrill.Proofs.Exercise.Grading
import FractionDrill.Proofs.Sheet.RoundTrip
import FractionDrill.Sheet.Report

/-!
# Generated sheets are graded as correct

An answer is made from a tree, and a grade from texts: the statement is numbered,
written on a line, found on that line again, scanned, rearranged and rebuilt
before it has a value to compare. The two paths agree for every batch that can be
drawn, from any source and under any rules, so a batch that is graded against its
own answers has every problem correct.
-/
namespace FractionDrill
open Text

/-- The space is the only blank of a statement, so no line ends within it. -/
theorem Sheet.fitsLine_of_forall {s : Text} (h : ∀ c ∈ s, c = ' ' ∨ c = '=' ∨ IsInk c) :
    FitsLine s := by
  have hblank : ∀ c, isBlank c = true → c ≠ ' ' → c ∉ s := by
    intro c hc hspace hmem
    rcases h c hmem with rfl | rfl | hink
    · exact hspace rfl
    · cases hc
    · rw [hink.1] at hc
      cases hc
  constructor
  · exact hblank '\n' rfl (by decide)
  · intro hlast
    exact hblank '\r' rfl (by decide) (List.mem_of_getLast? hlast)

theorem Report.ofGrading_of_wrong_nil {g : Grading} {n : Nat}
    (hcorrect : g.correct = List.range' 1 n) (hwrong : g.wrong = []) :
    Report.ofGrading g = "Correct: ".toList ++ natural n ++ " (".toList ++
      [',', ' '].intercalate ((List.range' 1 n).map natural) ++ ")\nWrong: 0 ()\n".toList := by
  rw [ofGrading, render, line, hcorrect, List.length_range', line, hwrong]
  simp [list, natural]

namespace Problem

theorem fitsLine_statement {p : Problem} (h : p.HasAnswer) : Sheet.FitsLine p.statement := by
  obtain ⟨e, v, -, rfl⟩ := h
  apply Sheet.fitsLine_of_forall
  intro c hc
  rw [ofExpr, List.mem_append] at hc
  rcases hc with hc | hc
  · exact (isInk_of_mem_expr hc).imp_right .inr
  · have hmark : c = ' ' ∨ c = '=' ∨ c = ' ' := by simpa using hc
    rcases hmark with rfl | rfl | rfl
    · exact .inl rfl
    · exact .inr (.inl rfl)
    · exact .inl rfl

theorem fitsLine_answer {p : Problem} (h : p.HasAnswer) : Sheet.FitsLine p.answer := by
  obtain ⟨e, v, -, rfl⟩ := h
  apply Sheet.fitsLine_of_forall
  intro c hc
  exact .inr (.inr (isInk_of_mem_fraction hc))

/-- A problem is correct where its own answer stands under its number. -/
theorem isCorrect_of_answerTo {p : Problem} (h : p.HasAnswer) {answers : List Entry} {k : Nat}
    (hanswer : Grading.answerTo answers k = some (trim p.answer)) :
    Grading.isCorrect answers (k, p.statement) = true := by
  obtain ⟨v, working, hevaluate, hp⟩ := h.evaluate_question
  rw [hp, trim_inked (inked_fraction v)] at hanswer
  simp [Grading.isCorrect, hevaluate, hanswer]

end Problem

/-- Problems that are numbered in the same way as their answers are all correct. -/
theorem Grading.isCorrect_of_mem_numbered {batch : List Problem} (h : ∀ p ∈ batch, p.HasAnswer)
    {exercise : Entry} (hmem : exercise ∈ Sheet.numbered (batch.map Problem.statement)) :
    isCorrect (Sheet.numbered (batch.map Problem.answer)) exercise = true := by
  obtain ⟨k, statement⟩ := exercise
  obtain ⟨p, hp, rfl⟩ := Sheet.mem_numbered_map.mp hmem
  apply Problem.isCorrect_of_answerTo (h p (List.of_mem_zip hp).2)
  apply answerTo_of_mem
  · rw [Sheet.map_fst_numbered]
    exact List.nodup_range'
  · exact Sheet.mem_numbered_map.mpr ⟨p, hp, rfl⟩

namespace Rules

variable {σ : Type} [WordSource σ]

/-- Whatever batch a source yields under the rules, its two sheets are read back with the
numbers from one to its size, and grading one against the other finds every exercise correct. -/
theorem grade_of_batch (rules : Rules) (size : Nat) (s : σ) (batch : List Problem)
    (h : ((rules.batch size).start s).1 = .ok batch) :
    ∃ exercises answers,
      Sheet.ReadsAs (Sheet.ofStatements batch) exercises ∧
      Sheet.ReadsAs (Sheet.ofAnswers batch) answers ∧
      exercises.map Prod.fst = List.range' 1 size ∧
      answers.map Prod.fst = List.range' 1 size ∧
      (grade exercises answers).correct = List.range' 1 size ∧
      (grade exercises answers).wrong = [] ∧
      (grade exercises answers).failures = [] ∧
      Report.ofGrading (grade exercises answers) =
        "Correct: ".toList ++ natural size ++ " (".toList ++
          [',', ' '].intercalate ((List.range' 1 size).map natural) ++
          ")\nWrong: 0 ()\n".toList := by
  obtain ⟨hbatch, hlength, hmax⟩ := rules.of_batch ⟨s, h⟩
  have hstatements : ∀ t ∈ batch.map Problem.statement, Sheet.FitsLine t := by
    simp only [List.forall_mem_map]
    exact fun p hp => Problem.fitsLine_statement (hbatch p hp)
  have hanswers : ∀ t ∈ batch.map Problem.answer, Sheet.FitsLine t := by
    simp only [List.forall_mem_map]
    exact fun p hp => Problem.fitsLine_answer (hbatch p hp)
  have hsorted : (List.range' 1 size).mergeSort = List.range' 1 size := by
    apply List.mergeSort_of_pairwise
    simp [List.pairwise_le_range']
  have hnumbers : ∀ f : Problem → Text,
      (Sheet.numbered (batch.map f)).map Prod.fst = List.range' 1 size := by
    intro f
    rw [Sheet.map_fst_numbered, List.length_map, hlength]
  have hgrade := Grading.grade_of_forall_isCorrect fun _ => Grading.isCorrect_of_mem_numbered hbatch
  rw [hnumbers, hsorted] at hgrade
  refine ⟨Sheet.numbered (batch.map Problem.statement), Sheet.numbered (batch.map Problem.answer),
    ?_, ?_, hnumbers _, hnumbers _, ?_⟩
  · exact Sheet.readsAs_write hstatements (by rw [List.length_map, hlength]; exact hmax)
  · exact Sheet.readsAs_write hanswers (by rw [List.length_map, hlength]; exact hmax)
  · rw [hgrade]
    exact ⟨rfl, rfl, rfl, Report.ofGrading_of_wrong_nil rfl rfl⟩

/-- A batch of three whose answers are two mixed numbers and a proper fraction. -/
theorem grade_of_batch_three :
    ∃ batch exercises answers,
      (((Rules.mk 10 (by decide) 3 64).batch 3).start (Script.mk [] 30)).1 = .ok batch ∧
      batch.map (fun p => (p.statement, p.answer)) =
        [("((9/10 - (1/2 ÷ 7)) × 6) = ".toList, "4'34/35".toList),
          ("(1/6 ÷ 2/5) = ".toList, "5/12".toList),
          ("((4 - 6/7) × (9 × 3)) = ".toList, "84'6/7".toList)] ∧
      Sheet.ReadsAs (Sheet.ofStatements batch) exercises ∧
      Sheet.ReadsAs (Sheet.ofAnswers batch) answers ∧
      (grade exercises answers).correct = [1, 2, 3] ∧
      (grade exercises answers).wrong = [] ∧
      (grade exercises answers).failures = [] ∧
      Report.ofGrading (grade exercises answers) =
        "Correct: 3 (1, 2, 3)\nWrong: 0 ()\n".toList := by
  have hrun : (((Rules.mk 10 (by decide) 3 64).batch 3).start (Script.mk [] 30)).1.map
      (List.map fun p => (p.statement, p.answer)) =
        .ok [("((9/10 - (1/2 ÷ 7)) × 6) = ".toList, "4'34/35".toList),
          ("(1/6 ÷ 2/5) = ".toList, "5/12".toList),
          ("((4 - 6/7) × (9 × 3)) = ".toList, "84'6/7".toList)] := by
    rw [batch, Batch.ofDraws_eq]
    decide +kernel
  cases h : (((Rules.mk 10 (by decide) 3 64).batch 3).start (Script.mk [] 30)).1 with
  | error fault =>
    rw [h] at hrun
    cases hrun
  | ok batch =>
    rw [h] at hrun
    obtain ⟨exercises, answers, hexercises, hanswers, -, -, hcorrect, hwrong, hfailures, hreport⟩ :=
      grade_of_batch (Rules.mk 10 (by decide) 3 64) 3 (Script.mk [] 30) batch h
    exact ⟨batch, exercises, answers, rfl, Except.ok.inj hrun, hexercises, hanswers, hcorrect,
      hwrong, hfailures, hreport⟩

end Rules
end FractionDrill
