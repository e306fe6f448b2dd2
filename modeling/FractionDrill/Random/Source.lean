/-!
# Sources of random words

A source yields 64-bit words one after another. Everything that is drawn is
computed from these words, so a run is fixed by the source it starts from. A
script yields given words first and then those of a linear congruential
generator.
-/
namespace FractionDrill

class WordSource (σ : Type) where
  /-- The next word, and the source after it. -/
  next : σ → UInt64 × σ

/-- Words to yield in order, and the state of the generator that follows them. -/
structure Script where
  words : List UInt64
  state : UInt64
deriving DecidableEq, Repr

namespace Script

/-- One step of the linear congruential generator modulo `2 ^ 64`. -/
def advance (state : UInt64) : UInt64 := state * 6364136223846793005 + 1442695040888963407

def next (s : Script) : UInt64 × Script :=
  match s.words with
  | w :: rest => (w, { s with words := rest })
  | [] => (advance s.state, { s with state := advance s.state })

instance : WordSource Script := ⟨next⟩

end Script

end FractionDrill
