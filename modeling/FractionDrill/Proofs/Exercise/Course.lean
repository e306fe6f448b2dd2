import FractionDrill.Proofs.Exercise.Batch
import FractionDrill.Proofs.Random.Successive
import Mathlib.Data.Finset.Card

/-!
# The course of a batch

The draws of a batch are those of its problems made one after another, so what a
batch gives is told by the list of the problems drawn and the number of keys in it.
A batch is complete with the shortest such list that has the wanted number of keys,
and consists of the first occurrence of each key. It ends with the first fault, and
otherwise at the limit on draws.
-/
namespace FractionDrill

namespace Batch

/-- The problems whose key no earlier problem of the list has. -/
def firstOccurrences : List Problem → List Problem
  | [] => []
  | p :: rest => p :: (firstOccurrences rest).filter fun q => q.key ≠ p.key

def distinctKeys (problems : List Problem) : Nat := (problems.map Problem.key).toFinset.card

/-- Whether a list has the wanted number of keys and no shorter list at its start has. -/
def IsShortest (size : Nat) (problems : List Problem) : Prop :=
  size ≤ distinctKeys problems ∧
    ∀ front, front <+: problems → size ≤ distinctKeys front → front = problems

/-- What a batch of the given size comes to from a source, within a limit on draws: its
outcome, where it leaves the source, and the number of draws that were made. -/
inductive Course {σ : Type} (draw : Draw σ Problem) (limit size : Nat) (s : σ) :
    Except Fault (List Problem) → σ → Nat → Prop
  /-- The draws so far have the wanted number of keys for the first time. -/
  | complete {problems : List Problem} {t : σ} : draw.Yields s problems t →
      problems.length ≤ limit → IsShortest size problems →
      Course draw limit size s (.ok (firstOccurrences problems)) t problems.length
  /-- One more draw was allowed and needed, and it failed. -/
  | fault {problems : List Problem} {t u : σ} {fault : Fault} : draw.Yields s problems t →
      problems.length < limit → distinctKeys problems < size →
      draw.start t = (.error fault, u) →
      Course draw limit size s (.error fault) u (problems.length + 1)
  /-- All draws were made, and keys are missing. -/
  | short {problems : List Problem} {t : σ} : draw.Yields s problems t →
      problems.length = limit → distinctKeys problems < size →
      Course draw limit size s (.error (.tooFewDistinct size (distinctKeys problems))) t limit

/-- The number of draws that a batch makes from a source. -/
def drawCount {σ : Type} (draw : Draw σ Problem) (size : Nat) (s : σ) : Nat :=
  ((ofDraws draw.counted size).start (s, 0)).2.2

variable {σ : Type} {draw : Draw σ Problem} {s t u : σ} {problems front : List Problem}
variable {limit size count : Nat} {outcome : Except Fault (List Problem)}

theorem key_mem_firstOccurrences {key : Text} :
    key ∈ (firstOccurrences problems).map Problem.key ↔ key ∈ problems.map Problem.key := by
  induction problems with
  | nil => rfl
  | cons p rest ih =>
    by_cases hkey : key = p.key
    · simp [firstOccurrences, hkey]
    · rw [firstOccurrences, List.map_cons, List.map_cons, List.mem_cons, List.mem_cons, ← ih]
      simp only [hkey, false_or, List.mem_map, List.mem_filter, decide_eq_true_eq]
      constructor
      · rintro ⟨q, ⟨hq, -⟩, rfl⟩
        exact ⟨q, hq, rfl⟩
      · rintro ⟨q, hq, rfl⟩
        exact ⟨q, ⟨hq, hkey⟩, rfl⟩

/-- A batch of first occurrences has no key twice. -/
theorem nodup_keys_firstOccurrences (problems : List Problem) :
    ((firstOccurrences problems).map Problem.key).Nodup := by
  induction problems with
  | nil => exact List.nodup_nil
  | cons p rest ih =>
    rw [firstOccurrences, List.map_cons, List.nodup_cons]
    constructor
    · intro hmem
      obtain ⟨q, hq, hkey⟩ := List.mem_map.mp hmem
      exact of_decide_eq_true (List.mem_filter.mp hq).2 hkey
    · exact ih.sublist (List.filter_sublist.map Problem.key)

/-- First occurrences are left in the order in which they came. -/
theorem firstOccurrences_sublist (problems : List Problem) :
    (firstOccurrences problems).Sublist problems := by
  induction problems with
  | nil => exact List.Sublist.refl []
  | cons p rest ih => exact (List.filter_sublist.trans ih).cons_cons p

theorem length_firstOccurrences (problems : List Problem) :
    (firstOccurrences problems).length = distinctKeys problems := by
  have hkeys : ((firstOccurrences problems).map Problem.key).toFinset =
      (problems.map Problem.key).toFinset := by
    ext key
    rw [List.mem_toFinset, List.mem_toFinset, key_mem_firstOccurrences]
  rw [distinctKeys, ← hkeys, List.toFinset_card_of_nodup (nodup_keys_firstOccurrences problems),
    List.length_map]

theorem firstOccurrences_append (front rest : List Problem) :
    firstOccurrences (front ++ rest) = firstOccurrences front ++
      (firstOccurrences rest).filter fun q => q.key ∉ front.map Problem.key := by
  induction front with
  | nil => simp [firstOccurrences]
  | cons p front ih =>
    rw [List.cons_append, firstOccurrences, ih, firstOccurrences, List.filter_append,
      List.cons_append, List.filter_filter]
    congr 2
    refine List.filter_congr fun q _ => ?_
    simp [not_or]

theorem firstOccurrences_concat (problems : List Problem) (p : Problem) :
    firstOccurrences (problems ++ [p]) =
      if p.key ∈ problems.map Problem.key then firstOccurrences problems
      else firstOccurrences problems ++ [p] := by
  rw [firstOccurrences_append]
  split <;> simp_all [firstOccurrences]

theorem firstOccurrences_mono (h : front <+: problems) :
    firstOccurrences front <+: firstOccurrences problems := by
  obtain ⟨rest, rfl⟩ := h
  rw [firstOccurrences_append]
  exact List.prefix_append _ _

theorem distinctKeys_mono (h : front <+: problems) :
    distinctKeys front ≤ distinctKeys problems := by
  rw [← length_firstOccurrences, ← length_firstOccurrences]
  exact (firstOccurrences_mono h).length_le

theorem distinctKeys_concat_le (problems : List Problem) (p : Problem) :
    distinctKeys (problems ++ [p]) ≤ distinctKeys problems + 1 := by
  rw [← length_firstOccurrences, ← length_firstOccurrences, firstOccurrences_concat]
  split
  · exact Nat.le_succ _
  · rw [List.length_append, List.length_singleton]

/-- Where too few keys were drawn, no list at the start of the draws has enough of them. -/
theorem not_le_of_few (hfew : distinctKeys problems < size) (h : front <+: problems) :
    ¬size ≤ distinctKeys front :=
  Nat.not_le.mpr ((distinctKeys_mono h).trans_lt hfew)

/-- The draw that brings the last missing key completes a shortest list. -/
theorem isShortest_concat {p : Problem} (hfew : distinctKeys problems < size)
    (henough : size ≤ distinctKeys (problems ++ [p])) : IsShortest size (problems ++ [p]) := by
  refine ⟨henough, fun front hfront hsize => ?_⟩
  rcases List.prefix_concat_iff.mp hfront with heq | hfront
  · exact heq
  · exact absurd hsize (not_le_of_few hfew hfront)

/-- A shortest list has exactly the wanted number of keys. -/
theorem IsShortest.distinctKeys_eq (h : IsShortest size problems) :
    distinctKeys problems = size := by
  refine Nat.le_antisymm ?_ h.1
  rcases List.eq_nil_or_concat' problems with rfl | ⟨front, p, rfl⟩
  · exact Nat.zero_le size
  · have hfront : ¬size ≤ distinctKeys front := fun hsize => by
      simpa using h.2 front (List.prefix_append front [p]) hsize
    have hconcat := distinctKeys_concat_le front p
    omega

theorem gather_complete (draw : Draw σ Problem) (draws : Nat) (found : List Problem) :
    gather draw draws 0 found = pure found := by
  cases draws <;> rfl

theorem start_gather_of_ok {draws missing : Nat} {found : List Problem} {p : Problem}
    (h : draw.start s = (.ok p, t)) :
    (gather draw (draws + 1) (missing + 1) found).start s =
      if p.key ∈ found.map Problem.key then (gather draw draws (missing + 1) found).start t
      else (gather draw draws missing (p :: found)).start t := by
  rw [gather, Draw.start_bind, h]
  simp only [List.contains_iff_mem]
  split <;> rfl

theorem start_gather_of_error {draws missing : Nat} {found : List Problem} {fault : Fault}
    (h : draw.start s = (.error fault, t)) :
    (gather draw (draws + 1) (missing + 1) found).start s = (.error fault, t) := by
  rw [gather, Draw.start_bind, h]

/-- After some draws that gave a problem each, without completing the batch before the
last of them, gathering goes on with the first occurrences among them. -/
theorem start_gather_of_yields (h : draw.Yields s problems t) (hlimit : problems.length ≤ limit)
    (hfront : ∀ front, front <+: problems → size ≤ distinctKeys front → front = problems) :
    (gather draw limit size []).start s =
      (gather draw (limit - problems.length) (size - distinctKeys problems)
        (firstOccurrences problems).reverse).start t := by
  induction h with
  | nil => rfl
  | @concat problems _ _ p _ hdraw ih =>
    rw [List.length_append, List.length_singleton] at hlimit
    -- Only the whole list may be complete, so without its last problem keys are missing.
    have hfew : distinctKeys problems < size := by
      by_contra hge
      simpa using hfront problems (List.prefix_append problems [p]) (Nat.not_lt.mp hge)
    rw [ih (by omega) fun front h hsize => absurd hsize (not_le_of_few hfew h)]
    obtain ⟨draws, hdraws⟩ := Nat.exists_eq_add_one.mpr (Nat.sub_pos_of_lt hlimit)
    obtain ⟨missing, hmissing⟩ := Nat.exists_eq_add_one.mpr (Nat.sub_pos_of_lt hfew)
    have hdraws' : limit - (problems ++ [p]).length = draws := by
      rw [List.length_append, List.length_singleton]
      omega
    have hmem : p.key ∈ (firstOccurrences problems).reverse.map Problem.key ↔
        p.key ∈ problems.map Problem.key := by
      rw [List.map_reverse, List.mem_reverse, key_mem_firstOccurrences]
    rw [hdraws, hmissing, hdraws', start_gather_of_ok hdraw, ← length_firstOccurrences,
      firstOccurrences_concat]
    rw [← length_firstOccurrences] at hmissing
    by_cases hkey : p.key ∈ problems.map Problem.key
    · rw [if_pos (hmem.mpr hkey), if_pos hkey, hmissing]
    · have hmissing' : size - (firstOccurrences problems ++ [p]).length = missing := by
        rw [List.length_append, List.length_singleton]
        omega
      rw [if_neg (mt hmem.mp hkey), if_neg hkey, hmissing', List.reverse_append,
        List.reverse_singleton, List.singleton_append]

/-- As long as keys are missing, gathering goes on. -/
theorem start_gather_of_few (h : draw.Yields s problems t) (hlimit : problems.length ≤ limit)
    (hfew : distinctKeys problems < size) :
    (gather draw limit size []).start s =
      (gather draw (limit - problems.length) (size - distinctKeys problems)
        (firstOccurrences problems).reverse).start t :=
  start_gather_of_yields h hlimit fun _ hfront hsize => absurd hsize (not_le_of_few hfew hfront)

/-- What gathering found is the batch in reverse, where it is enough. -/
theorem start_ofDraws_of_found {found : List Problem}
    (h : (gather draw (drawLimit size) size []).start s = (.ok found, t)) :
    (ofDraws draw size).start s =
      if found.length < size then (.error (.tooFewDistinct size found.length), t)
      else (.ok found.reverse, t) := by
  rw [ofDraws_eq, Draw.start_bind, h]
  by_cases hsize : found.length < size
  · simp only [if_pos hsize]
    rfl
  · simp only [if_neg hsize]
    rfl

theorem start_ofDraws_of_error {fault : Fault}
    (h : (gather draw (drawLimit size) size []).start s = (.error fault, t)) :
    (ofDraws draw size).start s = (.error fault, t) := by
  rw [ofDraws_eq, Draw.start_bind, h]

/-- The batch takes its course. -/
theorem start_of_course (h : Course draw (drawLimit size) size s outcome t count) :
    (ofDraws draw size).start s = (outcome, t) := by
  cases h with
  | complete hyields hlimit hshortest =>
    have hgather := start_gather_of_yields hyields hlimit hshortest.2
    rw [hshortest.distinctKeys_eq, Nat.sub_self, gather_complete] at hgather
    rw [start_ofDraws_of_found hgather, List.length_reverse, length_firstOccurrences,
      hshortest.distinctKeys_eq, if_neg (Nat.lt_irrefl size), List.reverse_reverse]
  | fault hyields hlimit hfew hdraw =>
    have hgather := start_gather_of_few hyields hlimit.le hfew
    obtain ⟨draws, hdraws⟩ := Nat.exists_eq_add_one.mpr (Nat.sub_pos_of_lt hlimit)
    obtain ⟨missing, hmissing⟩ := Nat.exists_eq_add_one.mpr (Nat.sub_pos_of_lt hfew)
    rw [hdraws, hmissing, start_gather_of_error hdraw] at hgather
    exact start_ofDraws_of_error hgather
  | short hyields hlimit hfew =>
    have hgather := start_gather_of_few hyields hlimit.le hfew
    rw [hlimit, Nat.sub_self, gather] at hgather
    rw [start_ofDraws_of_found hgather, List.length_reverse, length_firstOccurrences,
      if_pos hfew]

/-- One more allowed draw leaves a course as it is or takes it one draw further. -/
theorem exists_course_succ (h : Course draw limit size s outcome t count) :
    ∃ outcome t count, Course draw (limit + 1) size s outcome t count := by
  cases h with
  | complete hyields hlimit hshortest =>
    exact ⟨_, _, _, .complete hyields (Nat.le_succ_of_le hlimit) hshortest⟩
  | fault hyields hlimit hfew hdraw =>
    exact ⟨_, _, _, .fault hyields (Nat.lt_succ_of_lt hlimit) hfew hdraw⟩
  | @short problems _ hyields hlimit hfew =>
    rcases hdraw : draw.start t with ⟨fault | p, u⟩
    · exact ⟨_, _, _, .fault hyields (Nat.lt_succ_of_le hlimit.le) hfew hdraw⟩
    · have hlength : (problems ++ [p]).length = limit + 1 := by
        rw [List.length_append, List.length_singleton, hlimit]
      rcases Nat.lt_or_ge (distinctKeys (problems ++ [p])) size with hmissing | henough
      · exact ⟨_, _, _, .short (.concat hyields hdraw) hlength hmissing⟩
      · exact ⟨_, _, _, .complete (.concat hyields hdraw) hlength.le
          (isShortest_concat hfew henough)⟩

/-- From every source a batch takes some course. -/
theorem exists_course (draw : Draw σ Problem) (limit size : Nat) (s : σ) :
    ∃ outcome t count, Course draw limit size s outcome t count := by
  induction limit with
  | zero =>
    rcases Nat.eq_zero_or_pos size with rfl | hsize
    · exact ⟨_, _, _, .complete .nil (Nat.le_refl 0)
        ⟨Nat.zero_le _, fun front h _ => List.prefix_nil.mp h⟩⟩
    · exact ⟨_, _, _, .short .nil rfl hsize⟩
  | succ limit ih =>
    obtain ⟨outcome, t, count, h⟩ := ih
    exact exists_course_succ h

/-- Counting the draws changes nothing but the counter. -/
theorem Course.counted (h : Course draw limit size s outcome t count) (n : Nat) :
    Course draw.counted limit size (s, n) outcome (t, n + count) count := by
  cases h with
  | complete hyields hlimit hshortest => exact .complete (hyields.counted n) hlimit hshortest
  | @fault problems t u _ hyields hlimit hfew hdraw =>
    refine .fault (hyields.counted n) hlimit hfew ?_
    rw [Draw.start_counted, hdraw, Nat.add_assoc]
  | short hyields hlimit hfew =>
    refine .short ?_ hlimit hfew
    exact hlimit ▸ hyields.counted n

theorem drawCount_of_course (h : Course draw (drawLimit size) size s outcome t count) :
    drawCount draw size s = count := by
  rw [drawCount, start_of_course (h.counted 0), Nat.zero_add]

/-- A batch, with the number of draws it made, is its course. -/
theorem start_iff_course :
    (ofDraws draw size).start s = (outcome, t) ∧ drawCount draw size s = count ↔
      Course draw (drawLimit size) size s outcome t count := by
  constructor
  · rintro ⟨hstart, rfl⟩
    obtain ⟨outcome', t', count', h⟩ := exists_course draw (drawLimit size) size s
    rw [start_of_course h] at hstart
    cases hstart
    rw [drawCount_of_course h]
    exact h
  · intro h
    exact ⟨start_of_course h, drawCount_of_course h⟩

/-- A batch that succeeds has the first occurrences of a shortest list of draws. -/
theorem exists_yields_of_start {batch : List Problem}
    (h : ((ofDraws draw size).start s).1 = .ok batch) :
    ∃ problems t, draw.Yields s problems t ∧ IsShortest size problems ∧
      batch = firstOccurrences problems := by
  obtain ⟨outcome, t, count, hcourse⟩ := exists_course draw (drawLimit size) size s
  rw [start_of_course hcourse] at h
  subst h
  cases hcourse with
  | @complete problems _ hyields _ hshortest => exact ⟨problems, t, hyields, hshortest, rfl⟩

/-- From one source a smaller batch is the start of a larger one. -/
theorem prefix_of_le {larger : Nat} {batch batch' : List Problem} (hle : size ≤ larger)
    (h : ((ofDraws draw size).start s).1 = .ok batch)
    (h' : ((ofDraws draw larger).start s).1 = .ok batch') : batch <+: batch' := by
  obtain ⟨problems, t, hyields, hshortest, rfl⟩ := exists_yields_of_start h
  obtain ⟨others, u, hyields', hshortest', rfl⟩ := exists_yields_of_start h'
  apply firstOccurrences_mono
  rcases Nat.le_total problems.length others.length with hlength | hlength
  · exact hyields.prefix_of_length_le hyields' hlength
  · have hothers := hyields'.prefix_of_length_le hyields hlength
    exact hshortest.2 others hothers (hle.trans hshortest'.1) ▸ List.prefix_rfl

theorem drawLimit_eq (h : 100 * size < 2 ^ 64) : drawLimit size = 100 * size := by
  rw [drawLimit, drawsPerProblem, Nat.mul_comm, Nat.min_eq_left (Nat.le_of_lt_succ h)]

end Batch

namespace Rules

variable {σ : Type} [WordSource σ]

/-- A batch, with the number of problems it drew, is its course. So it has the wanted number
of problems, nothing is drawn where none is wanted, and a smaller batch from the same source
is the start of a larger one. -/
theorem batch_iff_course (rules : Rules) {size : Nat} (hsize : 100 * size < 2 ^ 64) (s : σ) :
    (∀ outcome t count,
      (rules.batch size).start s = (outcome, t) ∧
          Batch.drawCount rules.problem size s = count ↔
        Batch.Course rules.problem (100 * size) size s outcome t count) ∧
    (∀ batch, ((rules.batch size).start s).1 = .ok batch →
      batch.length = size ∧ (batch.map Problem.key).Nodup) ∧
    ((rules.batch 0).start s = (.ok [], s) ∧ Batch.drawCount rules.problem 0 s = 0) ∧
    (∀ larger batch batch', size ≤ larger → ((rules.batch size).start s).1 = .ok batch →
      ((rules.batch larger).start s).1 = .ok batch' → batch <+: batch') := by
  refine ⟨fun outcome t count => ?_, fun batch h => ?_, ⟨rfl, rfl⟩, fun larger batch batch' => ?_⟩
  · rw [← Batch.drawLimit_eq hsize]
    exact Batch.start_iff_course
  · obtain ⟨problems, t, -, hshortest, rfl⟩ := Batch.exists_yields_of_start h
    exact ⟨by rw [Batch.length_firstOccurrences, hshortest.distinctKeys_eq],
      Batch.nodup_keys_firstOccurrences problems⟩
  · exact Batch.prefix_of_le

/-- With numbers up to two and no operators there are two problems. The first of them is drawn
three times before the second one completes a batch of both. -/
theorem batch_iff_course_repeated :
    ∃ (rules : Rules) (s t : Script), 100 * 2 < 2 ^ 64 ∧
      Batch.Course rules.problem (100 * 2) 2 s
        (.ok [⟨"1 = ".toList, "1".toList⟩, ⟨"1/2 = ".toList, "1/2".toList⟩]) t 4 ∧
      [(⟨"1 = ".toList, "1".toList⟩ : Problem)] <+:
        [⟨"1 = ".toList, "1".toList⟩, ⟨"1/2 = ".toList, "1/2".toList⟩] := by
  let rules : Rules := .mk 2 (by decide) 0 64
  let s : Script := ⟨[], 7⟩
  let one : Problem := ⟨"1 = ".toList, "1".toList⟩
  let half : Problem := ⟨"1/2 = ".toList, "1/2".toList⟩
  have hone : ((rules.batch 1).start s).1 = .ok [one] := by
    rw [batch, Batch.ofDraws_eq]
    decide +kernel
  have hboth : ((rules.batch 2).start s).1 = .ok [one, half] := by
    rw [batch, Batch.ofDraws_eq]
    decide +kernel
  have hcount : Batch.drawCount rules.problem 2 s = 4 := by
    rw [Batch.drawCount, Batch.ofDraws_eq]
    decide +kernel
  refine ⟨rules, s, ((rules.batch 2).start s).2, by decide, ?_, ?_⟩
  · exact ((batch_iff_course rules (by decide) s).1 _ _ _).mp ⟨Prod.ext hboth rfl, hcount⟩
  · exact (batch_iff_course rules (by decide) s).2.2.2 2 [one] [one, half] (by decide) hone hboth

end Rules
end FractionDrill
