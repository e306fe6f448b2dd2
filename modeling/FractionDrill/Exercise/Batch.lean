import FractionDrill.Exercise.Generator
import Std.Data.HashSet

/-!
# Batches of distinct problems

A batch is drawn problem by problem, and a problem whose key was seen before is
dropped. The number of draws is limited, so a bound that is too small for the
wanted number of problems is reported. No draw is made once the batch is
complete, and a fault ends it at once.
-/
namespace FractionDrill

namespace Batch

/-- The draws that are allowed for each wanted problem. -/
def drawsPerProblem : Nat := 100

/-- The limit on the draws of a batch, which is itself at most a machine word. -/
def drawLimit (size : Nat) : Nat := min (size * drawsPerProblem) 0xffffffffffffffff

/-- Draws until the given number of problems is still missing or no draw is left.
The problems found so far are kept with the latest first. -/
def collect {σ : Type} (draw : Draw σ Problem) :
    (draws missing : Nat) → Std.HashSet Text → List Problem → Draw σ (List Problem)
  | 0, _, _, found => return found
  | _, 0, _, found => return found
  | draws + 1, missing + 1, seen, found => do
      let p ← draw
      if seen.contains p.key then collect draw draws (missing + 1) seen found
      else collect draw draws missing (seen.insert p.key) (p :: found)

/-- A batch of the given size, in the order of the draws. -/
def ofDraws {σ : Type} (draw : Draw σ Problem) (size : Nat) : Draw σ (List Problem) := do
  let found ← collect draw (drawLimit size) size ∅ []
  if found.length < size then throw (.tooFewDistinct size found.length)
  return found.reverse

end Batch

def Rules.batch {σ : Type} [WordSource σ] (rules : Rules) (size : Nat) : Draw σ (List Problem) :=
  Batch.ofDraws rules.problem size

end FractionDrill
