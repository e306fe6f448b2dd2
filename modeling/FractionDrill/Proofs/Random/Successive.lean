import FractionDrill.Proofs.Random.Outcome

/-!
# Successive draws

A draw that is made again and again moves its source along. As long as it gives
values, their list and the place of the source depend on the start and the number
of draws alone, so of two such lists one is the start of the other. Draws are
counted by a counter next to the source, which they cannot read.
-/
namespace FractionDrill.Draw

variable {σ α β : Type}

/-- Draws from `s` that all gave a value, in their order, up to where they left the source. -/
inductive Yields (draw : Draw σ α) (s : σ) : List α → σ → Prop
  | nil : Yields draw s [] s
  | concat {values : List α} {t u : σ} {a : α} : Yields draw s values t →
      draw.start t = (.ok a, u) → Yields draw s (values ++ [a]) u

/-- The draw with a count of how often it was made. -/
def counted (draw : Draw σ α) : Draw (σ × Nat) α := ExceptT.mk fun source =>
  let (outcome, s) := draw.start source.1
  (outcome, s, source.2 + 1)

variable {draw : Draw σ α} {s t u : σ} {values others : List α}

theorem start_counted (draw : Draw σ α) (s : σ) (n : Nat) :
    draw.counted.start (s, n) = ((draw.start s).1, (draw.start s).2, n + 1) := rfl

theorem Yields.counted (h : draw.Yields s values t) (n : Nat) :
    draw.counted.Yields (s, n) values (t, n + values.length) := by
  induction h with
  | nil => exact .nil
  | concat _ hdraw ih =>
    refine .concat ih ?_
    rw [start_counted, hdraw, List.length_append, List.length_singleton, Nat.add_assoc]

/-- Values that are computed from what is drawn come from draws of their own. -/
theorem Yields.exists_map {f : α → β} {results : List β}
    (h : Yields (do return f (← draw)) s results t) :
    ∃ drawn, draw.Yields s drawn t ∧ results = drawn.map f := by
  induction h with
  | nil => exact ⟨[], .nil, rfl⟩
  | @concat _ t _ _ _ hdraw ih =>
    obtain ⟨drawn, hdrawn, rfl⟩ := ih
    rw [start_bind] at hdraw
    cases hstart : draw.start t with
    | mk outcome next =>
      rw [hstart] at hdraw
      cases outcome with
      | error fault => cases hdraw
      | ok a =>
        cases hdraw
        exact ⟨drawn ++ [a], .concat hdrawn hstart, by simp⟩

/-- As many draws from one source give the same values. -/
theorem Yields.unique (h : draw.Yields s values t) (hother : draw.Yields s others u)
    (hlength : values.length = others.length) : values = others ∧ t = u := by
  induction h generalizing others u with
  | nil =>
    cases hother with
    | nil => exact ⟨rfl, rfl⟩
    | concat => simp at hlength
  | concat _ hdraw ih =>
    cases hother with
    | nil => simp at hlength
    | concat hother hdraw' =>
      rw [List.length_append, List.length_append, List.length_singleton, List.length_singleton,
        Nat.add_right_cancel_iff] at hlength
      obtain ⟨rfl, rfl⟩ := ih hother hlength
      rw [hdraw] at hdraw'
      cases hdraw'
      exact ⟨rfl, rfl⟩

/-- Fewer draws from one source give the first values of more draws. -/
theorem Yields.prefix_of_length_le (h : draw.Yields s values t) (hother : draw.Yields s others u)
    (hle : values.length ≤ others.length) : values <+: others := by
  induction hother with
  | nil =>
    rw [List.length_nil, Nat.le_zero, List.length_eq_zero_iff] at hle
    exact hle ▸ List.prefix_rfl
  | @concat others _ _ a hother hdraw ih =>
    rcases Nat.lt_or_ge others.length values.length with hlt | hge
    · have hlength : values.length = (others ++ [a]).length := by
        rw [List.length_append, List.length_singleton] at hle ⊢
        omega
      exact (h.unique (.concat hother hdraw) hlength).1 ▸ List.prefix_rfl
    · exact (ih hge).trans (List.prefix_append others [a])

end FractionDrill.Draw
