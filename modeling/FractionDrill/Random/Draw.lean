import FractionDrill.Fault
import FractionDrill.Random.Source

/-!
# Draws

A draw is a computation that takes words from a source and gives a value or a
fault. The source moves on in both cases. Numbers below a bound are drawn by
rejection: the product of a word and the bound is split at `2 ^ 64`, its high
part is the result, and the word is rejected where its low part lies above the
largest multiple of the bound by a power of two that fits in a word.

The high part is computed from the two halves of the word, so that no
intermediate number is much larger than the bound; `scaled_eq` says that this
is the same number.
-/
namespace FractionDrill

abbrev Draw (σ : Type) := ExceptT Fault (StateM σ)

namespace Draw

variable {σ : Type} [WordSource σ]

def start {σ α : Type} (d : Draw σ α) (s : σ) : Except Fault α × σ :=
  StateT.run (ExceptT.run d) s

def word : Draw σ UInt64 := ExceptT.lift (modifyGet WordSource.next)

/-- True for the words below the threshold. -/
def chance (threshold : UInt64) : Draw σ Bool := do return (← word) < threshold

/-- The largest low part that is accepted. -/
def zone (bound : Nat) : UInt64 := (UInt64.ofNat bound <<< UInt64.ofNat (63 - bound.log2)) - 1

def accepts (bound : Nat) (w : UInt64) : Bool := w * UInt64.ofNat bound ≤ zone bound

/-- The high part of the product of a word and the bound. -/
def scaled (bound : Nat) (w : UInt64) : Nat :=
  ((w >>> 32).toNat * bound + (w.toUInt32.toNat * bound) >>> 32) >>> 32

theorem scaled_eq (bound : Nat) (w : UInt64) : scaled bound w = (w.toNat * bound) >>> 64 := by
  have hhigh : (w >>> 32).toNat = w.toNat / 2 ^ 32 := by
    simp [UInt64.toNat_shiftRight, Nat.shiftRight_eq_div_pow]
  have hlow : w.toUInt32.toNat = w.toNat % 2 ^ 32 := by simp
  have hsplit : w.toNat * bound =
      2 ^ 32 * (w.toNat / 2 ^ 32 * bound) + w.toNat % 2 ^ 32 * bound := by
    rw [← Nat.mul_assoc, ← Nat.add_mul, Nat.div_add_mod]
  have hhalves : (w.toNat * bound) >>> 64 = (w.toNat * bound) >>> 32 >>> 32 :=
    Nat.shiftRight_add _ 32 32
  rw [scaled, hhalves, hhigh, hlow, Nat.shiftRight_eq_div_pow (w.toNat * bound),
    Nat.shiftRight_eq_div_pow (w.toNat % 2 ^ 32 * bound), hsplit, Nat.mul_add_div (by decide)]

theorem scaled_lt {bound : Nat} (h : 0 < bound) (w : UInt64) : scaled bound w < bound := by
  rw [scaled_eq, Nat.shiftRight_eq_div_pow]
  exact Nat.div_lt_of_lt_mul (Nat.mul_lt_mul_of_pos_right w.toNat_lt h)

/-- Rejects at most the given number of words and takes the next one as it is, so
that every draw ends and its result is below the bound in any case. -/
def belowWithin (bound : Nat) (h : 0 < bound) : Nat → Draw σ (Fin bound)
  | 0 => do
      let w ← word
      return ⟨scaled bound w, scaled_lt h w⟩
  | tries + 1 => do
      let w ← word
      if accepts bound w then return ⟨scaled bound w, scaled_lt h w⟩
      else belowWithin bound h tries

def rejectionLimit : Nat := 0x4000000000000000

/-- A number below the bound. -/
def below (bound : Nat) (h : 0 < bound) : Draw σ (Fin bound) :=
  belowWithin bound h rejectionLimit

/-- A number between two limits, both included. -/
def between (low high : Nat) (h : low ≤ high) : Draw σ { n // low ≤ n ∧ n ≤ high } := do
  let n ← below (high - low + 1) (Nat.succ_pos _)
  return ⟨low + n.val, Nat.le_add_right .., by omega⟩

/-- The value of a computation that may fail without taking words. -/
def ofExcept {α : Type} : Except Fault α → Draw σ α
  | .ok a => return a
  | .error fault => throw fault

end Draw
end FractionDrill
