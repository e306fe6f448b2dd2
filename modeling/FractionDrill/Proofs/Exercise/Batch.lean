import FractionDrill.Exercise.Batch
import FractionDrill.Proofs.Exercise.Domain
import FractionDrill.Proofs.Exercise.Problem

/-!
# What a batch contains

A batch has exactly the wanted number of problems, and each of them was drawn.
The number of draws is limited, so no batch is larger than the limit, and every
problem of a batch has the value of its own expression as its answer.
-/
namespace FractionDrill

namespace Batch

variable {σ : Type} {draw : Draw σ Problem}

/-- Draws as `collect` does, with the keys of the problems found so far in place of a
table of keys. -/
def gather (draw : Draw σ Problem) : (draws missing : Nat) → List Problem → Draw σ (List Problem)
  | 0, _, found => return found
  | _, 0, found => return found
  | draws + 1, missing + 1, found => do
      let p ← draw
      if (found.map Problem.key).contains p.key then gather draw draws (missing + 1) found
      else gather draw draws missing (p :: found)

/-- The table of keys holds the keys of the problems found so far. -/
theorem collect_eq_gather {draws missing : Nat} {seen : Std.HashSet Text} {found : List Problem}
    (hseen : ∀ key, seen.contains key = (found.map Problem.key).contains key) :
    collect draw draws missing seen found = gather draw draws missing found := by
  induction draws generalizing missing seen found with
  | zero => rfl
  | succ draws ih =>
    cases missing with
    | zero => rfl
    | succ missing =>
      have hinsert : ∀ p : Problem, ∀ key, (seen.insert p.key).contains key =
          ((p :: found).map Problem.key).contains key := by
        intro p key
        rw [Std.HashSet.contains_insert, hseen, List.map_cons, List.contains_cons]
        congr 1
        exact Bool.beq_comm
      rw [collect, gather]
      congr 1
      funext p
      rw [hseen, ih hseen, ih (hinsert p)]

/-- What is gathered was drawn or there before, and neither the wanted number nor the
number of draws is exceeded. -/
theorem of_gather {P : Problem → Prop} (hdraw : ∀ p, draw.Gives (.ok p) → P p)
    {draws missing : Nat} {found all : List Problem} (hfound : ∀ p ∈ found, P p)
    (h : (gather draw draws missing found).Gives (.ok all)) :
    (∀ p ∈ all, P p) ∧ all.length ≤ found.length + missing ∧
      all.length ≤ found.length + draws := by
  induction draws generalizing missing found with
  | zero =>
    cases Draw.gives_pure h
    exact ⟨hfound, Nat.le_add_right _ _, Nat.le_refl _⟩
  | succ draws ih =>
    cases missing with
    | zero =>
      cases Draw.gives_pure h
      exact ⟨hfound, Nat.le_refl _, Nat.le_add_right _ _⟩
    | succ missing =>
      obtain ⟨p, hp, h⟩ := Draw.gives_bind_ok h
      split at h
      · obtain ⟨hall, hmissing, hdraws⟩ := ih hfound h
        exact ⟨hall, hmissing, by omega⟩
      · have hcons : ∀ q ∈ p :: found, P q := by
          intro q hq
          rcases List.mem_cons.mp hq with rfl | hq
          · exact hdraw q hp
          · exact hfound q hq
        obtain ⟨hall, hmissing, hdraws⟩ := ih hcons h
        rw [List.length_cons] at hmissing hdraws
        exact ⟨hall, by omega, by omega⟩

theorem ofDraws_eq (draw : Draw σ Problem) (size : Nat) :
    ofDraws draw size = do
      let found ← gather draw (drawLimit size) size []
      if found.length < size then throw (.tooFewDistinct size found.length)
      return found.reverse := by
  have hseen : ∀ key, (∅ : Std.HashSet Text).contains key =
      (([] : List Problem).map Problem.key).contains key := by
    intro key
    rw [Std.HashSet.contains_empty]
    rfl
  rw [ofDraws, collect_eq_gather hseen]

/-- A batch has the wanted size, which is within the limit on draws, and its problems
were drawn. -/
theorem of_ofDraws {P : Problem → Prop} (hdraw : ∀ p, draw.Gives (.ok p) → P p) {size : Nat}
    {batch : List Problem} (h : (ofDraws draw size).Gives (.ok batch)) :
    (∀ p ∈ batch, P p) ∧ batch.length = size ∧ size ≤ drawLimit size := by
  rw [ofDraws_eq] at h
  obtain ⟨found, hfound, h⟩ := Draw.gives_bind_ok h
  obtain ⟨hall, hmissing, hdraws⟩ := of_gather hdraw (by simp) hfound
  split at h
  · obtain ⟨_, hthrow, -⟩ := Draw.gives_bind_ok h
    cases Draw.gives_throw hthrow
  · rename_i hsize
    cases Draw.gives_pure h
    rw [List.length_nil, Nat.zero_add] at hmissing hdraws
    refine ⟨fun p hp => hall p (List.mem_reverse.mp hp), ?_, ?_⟩
    · rw [List.length_reverse]
      omega
    · omega

/-- Gathering fails only where a draw does. -/
theorem gives_error_of_gather {draws missing : Nat} {found : List Problem} {fault : Fault}
    (h : (gather draw draws missing found).Gives (.error fault)) : draw.Gives (.error fault) := by
  induction draws generalizing missing found with
  | zero => cases Draw.gives_pure h
  | succ draws ih =>
    cases missing with
    | zero => cases Draw.gives_pure h
    | succ missing =>
      rcases Draw.gives_bind_error h with h | ⟨p, -, h⟩
      · exact h
      · split at h
        · exact ih h
        · exact ih h

/-- What was found before is not lost. -/
theorem length_le_of_gather {draws missing : Nat} {found all : List Problem}
    (h : (gather draw draws missing found).Gives (.ok all)) : found.length ≤ all.length := by
  induction draws generalizing missing found with
  | zero =>
    cases Draw.gives_pure h
    exact Nat.le_refl _
  | succ draws ih =>
    cases missing with
    | zero =>
      cases Draw.gives_pure h
      exact Nat.le_refl _
    | succ missing =>
      obtain ⟨p, -, h⟩ := Draw.gives_bind_ok h
      split at h
      · exact ih h
      · exact (Nat.le_succ _).trans (ih h)

/-- The first problem that is drawn is no repetition. -/
theorem length_pos_of_gather {draws missing : Nat} {all : List Problem} (hdraws : 0 < draws)
    (hmissing : 0 < missing) (h : (gather draw draws missing []).Gives (.ok all)) :
    0 < all.length := by
  obtain ⟨draws, rfl⟩ := Nat.exists_eq_add_one.mpr hdraws
  obtain ⟨missing, rfl⟩ := Nat.exists_eq_add_one.mpr hmissing
  obtain ⟨p, -, h⟩ := Draw.gives_bind_ok h
  rw [if_neg (by simp)] at h
  exact length_le_of_gather h

/-- Whether a fault tells that distinct problems were found, but not as many as were wanted. -/
def IsShortage (size : Nat) (fault : Fault) : Prop :=
  ∃ found, 0 < found ∧ found < size ∧ fault = .tooFewDistinct size found

/-- A batch fails where a draw does, or for want of distinct problems after the first one. -/
theorem fault_of_ofDraws {size : Nat} {fault : Fault}
    (h : (ofDraws draw size).Gives (.error fault)) :
    draw.Gives (.error fault) ∨ IsShortage size fault := by
  rw [ofDraws_eq] at h
  rcases Draw.gives_bind_error h with h | ⟨found, hfound, h⟩
  · exact .inl (gives_error_of_gather h)
  · split at h
    · rename_i hsize
      have hlimit : 0 < drawLimit size := by
        unfold drawLimit drawsPerProblem
        omega
      have hpos := length_pos_of_gather hlimit (Nat.zero_lt_of_lt hsize) hfound
      rcases Draw.gives_bind_error h with h | ⟨_, -, h⟩
      · cases Draw.gives_throw h
        exact .inr ⟨found.length, hpos, hsize, rfl⟩
      · cases Draw.gives_pure h
    · cases Draw.gives_pure h

end Batch

namespace Rules

variable {σ : Type} [WordSource σ]

/-- A problem that is drawn has the value of its expression as its answer. -/
theorem hasAnswer_of_problem (rules : Rules) {p : Problem}
    (h : (rules.problem : Draw σ Problem).Gives (.ok p)) : p.HasAnswer := by
  obtain ⟨v, hv, h⟩ := Draw.gives_bind_ok h
  cases Draw.gives_pure h
  exact ⟨v.expr, v.value, (rules.expression_withinRules rules.maxOperators hv).value_eq, rfl⟩

/-- Every batch has the wanted size, which fits in a machine word. -/
theorem of_batch (rules : Rules) {size : Nat} {batch : List Problem}
    (h : (rules.batch size : Draw σ (List Problem)).Gives (.ok batch)) :
    (∀ p ∈ batch, p.HasAnswer) ∧ batch.length = size ∧ size ≤ 0xffffffffffffffff := by
  obtain ⟨hanswers, hlength, hlimit⟩ := Batch.of_ofDraws (fun _ => rules.hasAnswer_of_problem) h
  exact ⟨hanswers, hlength, hlimit.trans (Nat.min_le_right _ _)⟩

end Rules
end FractionDrill
