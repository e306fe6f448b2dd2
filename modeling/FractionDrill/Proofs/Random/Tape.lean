import FractionDrill.Proofs.Random.Outcome
import Mathlib.Algebra.Group.Nat.Defs

/-!
# Draws from given words

A source that yields given words first fixes what is drawn from it. Here draws are
followed along such words: a draw takes some of them and gives a value, and the next
draw goes on with those that are left. Whatever can come out of a chance or of a number
below a bound does come out of some word. For a number it is the first word that is
scaled to the number, which is never rejected, because the low part of its product with
the bound is below the bound.
-/
namespace FractionDrill

/-- The words that a source yields in their order, up to a later place of it. -/
inductive WordSource.Emits {σ : Type} [WordSource σ] : σ → List UInt64 → σ → Prop
  | nil (s : σ) : Emits s [] s
  | cons {s t u : σ} {w : UInt64} {words : List UInt64} :
      next s = (w, t) → Emits t words u → Emits s (w :: words) u

namespace WordSource

/-- Words that follow one another are yielded one part after the other. -/
theorem exists_of_emits_append {σ : Type} [WordSource σ] {s u : σ} {first second : List UInt64}
    (h : Emits s (first ++ second) u) : ∃ t, Emits s first t ∧ Emits t second u := by
  induction first generalizing s with
  | nil => exact ⟨s, .nil s, h⟩
  | cons w first ih =>
    cases h with
    | cons hnext h =>
      obtain ⟨t, hfirst, hsecond⟩ := ih h
      exact ⟨t, .cons hnext hfirst, hsecond⟩

theorem emits_script (words rest : List UInt64) (state : UInt64) :
    Emits (Script.mk (words ++ rest) state) words (Script.mk rest state) := by
  induction words with
  | nil => exact .nil _
  | cons w words ih => exact .cons rfl ih

end WordSource

namespace Draw
open WordSource (Emits)

variable {σ α β : Type} [WordSource σ]

/-- Whether the draw takes exactly the words from a source that yields them, and gives the value. -/
def Takes (d : Draw σ α) (words : List UInt64) (a : α) : Prop :=
  ∀ s t, Emits s words t → d.start s = (.ok a, t)

theorem takes_pure (a : α) : (pure a : Draw σ α).Takes [] a := by
  intro s t h
  cases h
  rfl

theorem Takes.bind {d : Draw σ α} {f : α → Draw σ β} {first second : List UInt64} {a : α} {b : β}
    (hd : d.Takes first a) (hf : (f a).Takes second b) : (d >>= f).Takes (first ++ second) b := by
  intro s u h
  obtain ⟨t, hfirst, hsecond⟩ := WordSource.exists_of_emits_append h
  rw [start_bind, hd s t hfirst]
  exact hf t u hsecond

theorem Takes.bind_cons {d : Draw σ α} {f : α → Draw σ β} {w : UInt64} {words : List UInt64}
    {a : α} {b : β} (hd : d.Takes [w] a) (hf : (f a).Takes words b) :
    (d >>= f).Takes (w :: words) b := hd.bind hf

/-- What is only computed from a value takes no further words. -/
theorem Takes.bind_nil {d : Draw σ α} {f : α → Draw σ β} {words : List UInt64} {a : α} {b : β}
    (hd : d.Takes words a) (hf : (f a).Takes [] b) : (d >>= f).Takes words b := by
  have h := hd.bind hf
  rwa [List.append_nil] at h

theorem takes_ofExcept {x : Except Fault α} {a : α} (h : x = .ok a) :
    (ofExcept x : Draw σ α).Takes [] a := by
  rw [h]
  exact takes_pure a

theorem takes_word (w : UInt64) : (word : Draw σ UInt64).Takes [w] w := by
  intro s t h
  cases h with
  | cons hnext h =>
    cases h
    change ((Except.ok (WordSource.next s).1, (WordSource.next s).2) : Except Fault UInt64 × σ) = _
    rw [hnext]

theorem takes_chance_true {threshold w : UInt64} (h : w < threshold) :
    (chance threshold : Draw σ Bool).Takes [w] true := by
  refine (takes_word w).bind_nil ?_
  rw [decide_eq_true h]
  exact takes_pure true

theorem takes_chance_false {threshold w : UInt64} (h : ¬w < threshold) :
    (chance threshold : Draw σ Bool).Takes [w] false := by
  refine (takes_word w).bind_nil ?_
  rw [decide_eq_false h]
  exact takes_pure false

/-- The first word that is scaled to the number below the bound. -/
def wordFor (bound k : Nat) : UInt64 := UInt64.ofNat ((k * 2 ^ 64 + (bound - 1)) / bound)

def wordBetween (low high n : Nat) : UInt64 := wordFor (high - low + 1) (n - low)

/-- The product of that word and the bound is the least multiple of the bound whose high part is
the number. -/
theorem wordFor_mul {bound k : Nat} (hk : k < bound) (hbound : bound < 2 ^ 64) :
    ∃ low, low < bound ∧ (wordFor bound k).toNat * bound = k * 2 ^ 64 + low := by
  have hpos : 0 < bound := Nat.zero_lt_of_lt hk
  have hdivmod := Nat.div_add_mod (k * 2 ^ 64 + (bound - 1)) bound
  have hmod := Nat.mod_lt (k * 2 ^ 64 + (bound - 1)) hpos
  have hlt : (k * 2 ^ 64 + (bound - 1)) / bound < 2 ^ 64 := by
    rw [Nat.div_lt_iff_lt_mul hpos]
    have hnext : (k + 1) * 2 ^ 64 ≤ bound * 2 ^ 64 := Nat.mul_le_mul_right _ hk
    omega
  -- Rounding the quotient up overshoots by what the remainder leaves of `bound - 1`.
  refine ⟨bound - 1 - (k * 2 ^ 64 + (bound - 1)) % bound, by omega, ?_⟩
  rw [wordFor, UInt64.toNat_ofNat_of_lt' hlt, Nat.mul_comm]
  omega

theorem scaled_wordFor {bound k : Nat} (hk : k < bound) (hbound : bound < 2 ^ 64) :
    scaled bound (wordFor bound k) = k := by
  obtain ⟨low, hlow, hproduct⟩ := wordFor_mul hk hbound
  rw [scaled_eq, hproduct, Nat.shiftRight_eq_div_pow]
  omega

/-- The low parts that are accepted are at least those below the bound. -/
theorem le_zone {bound : Nat} (hpos : 0 < bound) (hbound : bound < 2 ^ 64) :
    bound ≤ (zone bound).toNat + 1 := by
  have hlog : bound.log2 < 64 := (Nat.log2_lt (Nat.ne_of_gt hpos)).mpr hbound
  have hshift : (UInt64.ofNat (63 - bound.log2)).toNat = 63 - bound.log2 :=
    UInt64.toNat_ofNat_of_lt' (Nat.lt_of_le_of_lt (Nat.sub_le 63 _) (by decide))
  have hfits : bound * 2 ^ (63 - bound.log2) < 2 ^ 64 := by
    calc bound * 2 ^ (63 - bound.log2)
        < 2 ^ (bound.log2 + 1) * 2 ^ (63 - bound.log2) :=
          Nat.mul_lt_mul_of_pos_right Nat.lt_log2_self (Nat.two_pow_pos _)
      _ = 2 ^ 64 := by
          rw [← Nat.pow_add]
          congr 1
          omega
  have htop : (UInt64.ofNat bound <<< UInt64.ofNat (63 - bound.log2)).toNat =
      bound * 2 ^ (63 - bound.log2) := by
    rw [UInt64.toNat_shiftLeft, UInt64.toNat_ofNat_of_lt' hbound, hshift, Nat.shiftLeft_eq,
      Nat.mod_eq_of_lt (show 63 - bound.log2 < 64 by omega), Nat.mod_eq_of_lt hfits]
  have hle : bound ≤ bound * 2 ^ (63 - bound.log2) :=
    Nat.le_mul_of_pos_right bound (Nat.two_pow_pos _)
  have hone : (1 : UInt64) ≤ UInt64.ofNat bound <<< UInt64.ofNat (63 - bound.log2) := by
    rw [UInt64.le_iff_toNat_le, htop]
    exact Nat.le_trans hpos hle
  rw [zone, UInt64.toNat_sub_of_le _ _ hone, htop]
  exact Nat.le_trans hle (Nat.le_add_of_sub_le (Nat.le_refl _))

theorem accepts_wordFor {bound k : Nat} (hk : k < bound) (hbound : bound < 2 ^ 64) :
    accepts bound (wordFor bound k) = true := by
  obtain ⟨low, hlow, hproduct⟩ := wordFor_mul hk hbound
  have hzone := le_zone (Nat.zero_lt_of_lt hk) hbound
  have hpart : (wordFor bound k * UInt64.ofNat bound).toNat = low := by
    rw [UInt64.toNat_mul, UInt64.toNat_ofNat_of_lt' hbound, hproduct]
    omega
  rw [accepts, decide_eq_true_eq, UInt64.le_iff_toNat_le, hpart]
  omega

theorem takes_belowWithin {bound : Nat} (h : 0 < bound) (hbound : bound < 2 ^ 64) (tries : Nat)
    (k : Fin bound) :
    (belowWithin bound h tries : Draw σ (Fin bound)).Takes [wordFor bound k] k := by
  have hscaled : (⟨scaled bound (wordFor bound k), scaled_lt h _⟩ : Fin bound) = k :=
    Fin.ext (scaled_wordFor k.isLt hbound)
  cases tries with
  | zero =>
    refine (takes_word _).bind_nil ?_
    rw [hscaled]
    exact takes_pure k
  | succ tries =>
    refine (takes_word _).bind_nil ?_
    rw [if_pos (accepts_wordFor k.isLt hbound), hscaled]
    exact takes_pure k

theorem takes_below {bound : Nat} (h : 0 < bound) (hbound : bound < 2 ^ 64) (k : Fin bound) :
    (below bound h : Draw σ (Fin bound)).Takes [wordFor bound k] k :=
  takes_belowWithin h hbound rejectionLimit k

theorem takes_between {low high n : Nat} (h : low ≤ high) (hsize : high - low + 1 < 2 ^ 64)
    (hn : low ≤ n ∧ n ≤ high) :
    (between low high h : Draw σ { n // low ≤ n ∧ n ≤ high }).Takes [wordBetween low high n]
      ⟨n, hn⟩ := by
  have hk : n - low < high - low + 1 := by omega
  refine (takes_below (Nat.succ_pos _) hsize ⟨n - low, hk⟩).bind_nil ?_
  have hvalue : (⟨low + (n - low), Nat.le_add_right .., by omega⟩ : { n // low ≤ n ∧ n ≤ high }) =
      ⟨n, hn⟩ := Subtype.ext (Nat.add_sub_cancel' hn.1)
  rw [hvalue]
  exact takes_pure _

end Draw
end FractionDrill
