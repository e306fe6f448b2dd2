import FractionDrill.Proofs.Exercise.Batch
import FractionDrill.Proofs.Exercise.Overflow
import FractionDrill.Proofs.Run.Steps

/-!
# Faults of generation

An exercise fails by overflow at worst, and not at all while the numbers that its
operators can reach are words. The limit on the bound of a run is small enough for
that, so a run that generates meets no fault of arithmetic, whatever its source of words;
it can only run out of distinct problems.
-/
namespace FractionDrill

namespace Rules

open Draw

/-- Drawing under the rules meets no overflow: exercises are drawn, attempts within their budget
end, those without division succeed, and no operation on two operands that share the budget
overflows. -/
structure MeetsNoOverflow (σ : Type) [WordSource σ] (rules : Rules) : Prop where
  exercise : ∀ s : σ, ∃ v, (rules.exercise.start s).1 = .ok v
  attempt : ∀ table htable budget, budget ≤ rules.maxOperators → ∀ s : σ, ∃ found,
    ((rules.attempt table htable budget fun k _ => rules.expression k).start s).1 = .ok found
  undivided : ∀ htable budget, budget ≤ rules.maxOperators → ∀ s : σ, ∃ v,
    ((rules.attempt Operator.withoutDivision htable budget fun k _ => rules.expression k).start s).1
      = .ok (some v)
  operation : ∀ k l, k + l < rules.maxOperators → ∀ left right : Valued,
    (rules.expression k : Draw σ Valued).Gives (.ok left) →
      (rules.expression l : Draw σ Valued).Gives (.ok right) →
        ∀ op : Operator, op.apply left.value right.value ≠ .error .overflow

variable {σ : Type} [WordSource σ]

theorem meetsNoOverflow {rules : Rules}
    (h : growthLimit rules.bound rules.maxOperators ≤ maxPart) : rules.MeetsNoOverflow σ := by
  have hbound : 1 ≤ rules.bound := Nat.le_of_succ_le rules.two_le_bound
  have hlimit : ∀ {budget}, budget ≤ rules.maxOperators →
      growthLimit rules.bound budget ≤ maxPart :=
    fun hbudget => (growthLimit_mono hbound hbudget).trans h
  have hattempt : ∀ table htable budget, budget ≤ rules.maxOperators →
      (rules.attempt table htable budget fun k _ => rules.expression k :
        Draw σ (Option Valued)).NeverFails := by
    intro table htable budget hbudget
    refine (rules.attempt_overflowsAbove (le_growthLimit hbound budget) ?_).neverFails
      (hlimit hbudget)
    intro k hk
    exact (rules.expression_overflowsAbove k).mono (growthLimit_mono hbound (Nat.le_of_lt hk))
  constructor
  case exercise =>
    exact ((rules.expression_overflowsAbove rules.maxOperators).neverFails h).exists_ok
  case attempt =>
    intro table htable budget hbudget
    exact (hattempt table htable budget hbudget).exists_ok
  case undivided =>
    intro htable budget hbudget s
    obtain ⟨found, hfound⟩ := (hattempt Operator.withoutDivision htable budget hbudget).exists_ok s
    cases found with
    | some v => exact ⟨v, hfound⟩
    | none =>
      have hlarge := rules.lt_growthLimit_of_attempt
        (fun k _ v hv => rules.expression_withinRules k hv) (by decide) ⟨s, hfound⟩
      exact absurd (hlimit hbudget) (Nat.not_le.mpr hlarge)
  case operation =>
    intro k l hbudget left right hleft hright op hoverflow
    have hl := (rules.expression_withinRules k hleft).within hbound
    have hr := (rules.expression_withinRules l hright).within hbound
    have hlarge := (op.staysWithin_apply hl hr).lt_of_overflow hoverflow
    rw [growthLimit_join] at hlarge
    exact absurd (hlimit (by omega)) (Nat.not_le.mpr hlarge)

/-- A batch fails by overflow above the limit for its rules, and otherwise for want of distinct
problems. -/
theorem fault_of_batch {rules : Rules} (h : growthLimit rules.bound rules.maxOperators ≤ maxPart)
    {size : Nat} {fault : Fault} (hbatch : (rules.batch size : Draw σ _).Gives (.error fault)) :
    Batch.IsShortage size fault := by
  have hproblem : (rules.problem : Draw σ Problem).NeverFails :=
    ((rules.expression_overflowsAbove rules.maxOperators).neverFails h).bind
      fun _ => neverFails_pure _
  rcases Batch.fault_of_ofDraws hbatch with hdraw | hfew
  · exact absurd hdraw (hproblem fault)
  · exact hfew

end Rules

/-- Options that are accepted for generation have a bound within its limits. -/
theorem Settings.bound_of_ofOptions {options : Options} {settings : Settings} {count : Nat}
    {bound : Int} (h : ofOptions options = .ok settings)
    (hmode : settings.mode = .generate count bound) : 2 ≤ bound ∧ bound ≤ maxBound := by
  have hgeneration : ∀ {n b}, generation n b = .ok (.generate count bound) →
      2 ≤ bound ∧ bound ≤ maxBound := by
    intro n b hok
    unfold generation at hok
    split at hok
    · cases hok
    · rename_i hlimits
      split at hok
      · cases hok
      · cases hok
        exact not_not.mp hlimits
  obtain ⟨mode, hchosen, hsettings⟩ := Fault.bind_eq_ok_iff.mp h
  cases hsettings
  cases hmode
  unfold chooseMode at hchosen
  split at hchosen
  · exact hgeneration hchosen
  · cases hchosen
  · split at hchosen <;> cases hchosen
  · cases hchosen
  · cases hchosen

namespace Run

/-- The limit on the bound keeps three operators below the largest word. -/
theorem growthLimit_maxBound : growthLimit Settings.maxBound defaultMaxOperators ≤ maxPart := by
  decide

/-- Within the limits of the settings a batch can only have too few distinct problems. -/
theorem fault_of_drawBatch {τ : Type} [WordSource τ] {source : τ} {count : Nat} {bound : Int}
    {fault : Fault} (hlow : 2 ≤ bound) (hhigh : bound ≤ Settings.maxBound)
    (h : drawBatch count bound source = .error fault) : Batch.IsShortage count fault := by
  have htwo : 2 ≤ bound.toNat := by omega
  rw [drawBatch, Rules.ofBound, dif_pos htwo] at h
  have hlimit : growthLimit bound.toNat defaultMaxOperators ≤ maxPart :=
    (Nat.mul_le_mul_left _ (Nat.pow_le_pow_left (by omega) _)).trans growthLimit_maxBound
  exact Rules.fault_of_batch hlimit ⟨_, h⟩

theorem length_of_drawBatch {τ : Type} [WordSource τ] {source : τ} {count : Nat} {bound : Int}
    {batch : List Problem} (h : drawBatch count bound source = .ok batch) : batch.length = count := by
  obtain ⟨rules, -, hdrawn⟩ := Fault.bind_eq_ok_iff.mp h
  exact (rules.of_batch ⟨_, hdrawn⟩).2.1

variable {σ : Type} [Host (StateM σ)]

/-- A fault of the core in a run that generates is one of the batch. -/
theorem drawBatch_of_generate {settings : Settings} {count : Nat} {bound : Int} {s s' : σ}
    {fault : Fault} (h : outcome (generate settings count bound) s = (.error (.core fault), s')) :
    ∃ source : Keystream, drawBatch count bound source = .error fault := by
  have hservices : Host.KeptByServices fun _ : σ => True := by
    constructor
    all_goals intros; exact fun _ _ => trivial
  obtain ⟨source, -, hfails⟩ := generate_fails hservices trivial h
  cases hfails with
  | drawing hdrawn hfault =>
    cases hfault
    exact ⟨source, hdrawn⟩
  | statements _ _ hsave => obtain ⟨_, hfault | hfault⟩ := fault_of_save hsave <;> cases hfault
  | answers _ _ _ hsave => obtain ⟨_, hfault | hfault⟩ := fault_of_save hsave <;> cases hfault

end Run

/-- Exercises fail by overflow alone, from every source, under any rules. Where the numbers that
the rules allow stay words, nothing overflows. So a run on accepted options meets no other fault
of the core than a batch with too few distinct problems, whatever its source and the host. -/
theorem generation_faults :
    (∀ (σ : Type) [WordSource σ] (rules : Rules) (s : σ) (fault : Fault),
      (rules.exercise.start s).1 = .error fault → fault = .overflow) ∧
    (∀ (σ : Type) [WordSource σ] (rules : Rules),
      2 ^ rules.maxOperators * rules.bound ^ (rules.maxOperators + 1) ≤ maxPart →
        rules.MeetsNoOverflow σ) ∧
    (∀ (options : Options) (settings : Settings) (count : Nat) (bound : Int),
      Settings.ofOptions options = .ok settings → settings.mode = .generate count bound →
        (∀ (τ : Type) [WordSource τ] (source : τ), match Run.drawBatch count bound source with
          | .ok batch => batch.length = count
          | .error fault => Batch.IsShortage count fault) ∧
        ∀ (σ : Type) [Host (StateM σ)] (s : σ),
          match (Run.outcome (Run.execute settings) s).1 with
          | .error (.core fault) => Batch.IsShortage count fault
          | _ => True) := by
  refine ⟨?_, ?_, ?_⟩
  · intro σ _ rules s fault hfault
    exact (rules.expression_overflowsAbove rules.maxOperators fault ⟨s, hfault⟩).1
  · intro σ _ rules hlimit
    exact Rules.meetsNoOverflow hlimit
  · intro options settings count bound hoptions hmode
    obtain ⟨hlow, hhigh⟩ := Settings.bound_of_ofOptions hoptions hmode
    constructor
    · intro τ _ source
      split
      · rename_i batch hbatch
        exact Run.length_of_drawBatch hbatch
      · rename_i fault hfault
        exact Run.fault_of_drawBatch hlow hhigh hfault
    · intro σ _ s
      split
      · rename_i fault hfault
        rw [Run.execute, hmode] at hfault
        obtain ⟨source, hdrawn⟩ := Run.drawBatch_of_generate (Prod.ext hfault rfl)
        exact Run.fault_of_drawBatch hlow hhigh hdrawn
      · trivial

/-- Two whole numbers near the largest word are multiplied, with no attempt left; exercises up to
ten with three operators; and a run at the limit on the bound. -/
theorem generation_faults_at_limits :
    (∃ fault, ((Rules.mk (2 ^ 63 - 1) (by decide) 1 0).exercise.start (Script.mk
        [6000000000000000000, 0, 6000000000000000000, 6000000000000000000, 6000000000000000000,
          6000000000000000000, 0xC000000000000000] 0)).1 = .error fault ∧ fault = .overflow) ∧
    (2 ^ 3 * 10 ^ (3 + 1) ≤ maxPart ∧ (Rules.mk 10 (by decide) 3 64).MeetsNoOverflow Script) ∧
    Settings.ofOptions { bound := some 1000 } =
      .ok ⟨.generate 10 1000, Settings.defaultDirectory, none, false⟩ ∧
    (∀ key, match Run.drawBatch 10 1000 (Keystream.ofKey key) with
      | .ok batch => batch.length = 10
      | .error fault => Batch.IsShortage 10 fault) ∧
    ∀ machine : Machine, match (Run.outcome (Run.execute
        ⟨.generate 10 1000, Settings.defaultDirectory, none, false⟩) machine).1 with
      | .error (.core fault) => Batch.IsShortage 10 fault
      | _ => True := by
  obtain ⟨hoverflow, hguarded, hrun⟩ := generation_faults
  have hscript : ((Rules.mk (2 ^ 63 - 1) (by decide) 1 0).exercise.start (Script.mk
      [6000000000000000000, 0, 6000000000000000000, 6000000000000000000, 6000000000000000000,
        6000000000000000000, 0xC000000000000000] 0)).1 = .error .overflow := by
    decide +kernel
  have hoptions : Settings.ofOptions { bound := some 1000 } =
      .ok ⟨.generate 10 1000, Settings.defaultDirectory, none, false⟩ := by
    rfl
  have hends := hrun _ _ _ _ hoptions rfl
  refine ⟨⟨_, hscript, hoverflow _ _ _ _ hscript⟩, ⟨by decide, ?_⟩, hoptions, ?_, ?_⟩
  · exact hguarded _ _ (by decide)
  · exact fun key => hends.1 Keystream (.ofKey key)
  · exact hends.2 Machine

end FractionDrill
