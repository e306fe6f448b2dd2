import FractionDrill.Random.Draw

/-!
# What draws can give

The outcomes of a draw are those that it has from some source. A source may yield
any words, so nothing is assumed about the answer of a chance, and of a number
below a bound only that it is below the bound. Where draws follow one another,
each is followed back to outcomes of the parts.
-/
namespace FractionDrill.Draw

variable {σ α β : Type}

/-- Whether a draw has the outcome from some source. -/
def Gives (d : Draw σ α) (outcome : Except Fault α) : Prop := ∃ s, (d.start s).1 = outcome

theorem gives_pure {a : α} {outcome : Except Fault α}
    (h : (pure a : Draw σ α).Gives outcome) : outcome = .ok a := by
  obtain ⟨s, hs⟩ := h
  exact hs.symm

theorem gives_throw {fault : Fault} {outcome : Except Fault α}
    (h : (throw fault : Draw σ α).Gives outcome) : outcome = .error fault := by
  obtain ⟨s, hs⟩ := h
  exact hs.symm

theorem gives_ofExcept {x outcome : Except Fault α}
    (h : (ofExcept x : Draw σ α).Gives outcome) : x = outcome := by
  cases x with
  | ok a => exact (gives_pure h).symm
  | error fault => exact (gives_throw h).symm

theorem start_bind (d : Draw σ α) (f : α → Draw σ β) (s : σ) :
    (d >>= f).start s =
      match d.start s with
      | (.ok a, s') => (f a).start s'
      | (.error fault, s') => (.error fault, s') := by
  simp only [start, ExceptT.run_bind, StateT.run_bind]
  rcases hd : (ExceptT.run d).run s with ⟨outcome, s'⟩
  cases outcome <;> rfl

/-- A value of two draws comes from values of both. -/
theorem gives_bind_ok {d : Draw σ α} {f : α → Draw σ β} {b : β}
    (h : (d >>= f).Gives (.ok b)) : ∃ a, d.Gives (.ok a) ∧ (f a).Gives (.ok b) := by
  obtain ⟨s, hs⟩ := h
  rw [start_bind] at hs
  rcases hd : d.start s with ⟨_ | a, s'⟩
  · rw [hd] at hs
    cases hs
  · rw [hd] at hs
    exact ⟨a, ⟨s, by rw [hd]⟩, ⟨s', hs⟩⟩

/-- A fault of two draws comes from the first, or from the second after a value of the first. -/
theorem gives_bind_error {d : Draw σ α} {f : α → Draw σ β} {fault : Fault}
    (h : (d >>= f).Gives (.error fault)) :
    d.Gives (.error fault) ∨ ∃ a, d.Gives (.ok a) ∧ (f a).Gives (.error fault) := by
  obtain ⟨s, hs⟩ := h
  rw [start_bind] at hs
  rcases hd : d.start s with ⟨_ | a, s'⟩
  · rw [hd] at hs
    cases hs
    exact .inl ⟨s, by rw [hd]⟩
  · rw [hd] at hs
    exact .inr ⟨a, ⟨s, by rw [hd]⟩, ⟨s', hs⟩⟩

/-- Whether a draw gives a value from every source. -/
def NeverFails (d : Draw σ α) : Prop := ∀ fault, ¬d.Gives (.error fault)

theorem NeverFails.exists_ok {d : Draw σ α} (h : d.NeverFails) (s : σ) :
    ∃ a, (d.start s).1 = .ok a := by
  cases hs : (d.start s).1 with
  | error fault => exact absurd ⟨s, hs⟩ (h fault)
  | ok a => exact ⟨a, rfl⟩

theorem neverFails_pure (a : α) : (pure a : Draw σ α).NeverFails :=
  fun _ h => nomatch gives_pure h

theorem NeverFails.bind {d : Draw σ α} {f : α → Draw σ β} (hd : d.NeverFails)
    (hf : ∀ a, (f a).NeverFails) : (d >>= f).NeverFails := by
  intro fault h
  rcases gives_bind_error h with h | ⟨a, -, h⟩
  · exact hd fault h
  · exact hf a fault h

variable [WordSource σ]

theorem neverFails_word : (word : Draw σ UInt64).NeverFails := by
  rintro fault ⟨s, hs⟩
  cases hs

theorem neverFails_chance (threshold : UInt64) : (chance threshold : Draw σ Bool).NeverFails :=
  neverFails_word.bind fun _ => neverFails_pure _

theorem neverFails_belowWithin {bound : Nat} (h : 0 < bound) (tries : Nat) :
    (belowWithin bound h tries : Draw σ (Fin bound)).NeverFails := by
  induction tries with
  | zero => exact neverFails_word.bind fun _ => neverFails_pure _
  | succ tries ih =>
    refine neverFails_word.bind fun w => ?_
    split
    · exact neverFails_pure _
    · exact ih

theorem neverFails_below {bound : Nat} (h : 0 < bound) :
    (below bound h : Draw σ (Fin bound)).NeverFails :=
  neverFails_belowWithin h rejectionLimit

theorem neverFails_between {low high : Nat} (h : low ≤ high) :
    (between low high h : Draw σ { n // low ≤ n ∧ n ≤ high }).NeverFails :=
  (neverFails_below _).bind fun _ => neverFails_pure _

end FractionDrill.Draw
