import FractionDrill.Proofs.Exercise.Domain
import FractionDrill.Proofs.Expr.Scanning
import FractionDrill.Proofs.Fraction.Parts

/-!
# Lowest terms everywhere

Wherever a fraction comes from, it is in lowest terms: a construction carried out
on bare parts, where nothing forces this, gives such parts, and it gives the parts
of the fraction that the same construction gives. So the numbers of a text, those
of an exercise and the values of expressions are rebuilt unchanged from their parts.
-/
namespace FractionDrill
open Text

/-- Whether the parts are in lowest terms and make the same fraction again. -/
def Fraction.IsCanonical (q : Fraction) : Prop :=
  q.parts.IsCanonical ∧ Fraction.ofParts q.num q.den = .ok q

theorem Fraction.isCanonical (q : Fraction) : q.IsCanonical := by
  have hnum : q.num.natAbs ≤ maxPart := q.num_le
  have hden : q.den ≤ maxPart := q.den_le
  have hvalue : (q.num : Rat) / q.den = q.value := Rat.num_div_den q.value
  refine ⟨q.isCanonical_parts, ?_⟩
  rw [ofParts_of_le hnum hden, if_neg (Nat.ne_of_gt q.den_pos), hvalue]
  exact ofRat_value q

namespace Construction

/-- The construction of the value of an expression from the parts of its numbers. -/
def ofExpr : Expr → Construction
  | .number q => quotient q.num q.den
  | .binary op left right => apply op (ofExpr left) (ofExpr right)

theorem run_ofExpr (e : Expr) : (ofExpr e).run = e.value := by
  induction e with
  | number q => exact q.isCanonical.2
  | binary op left right ihl ihr => rw [ofExpr, run, ihl, ihr, Expr.value]

/-- Parts that a construction gives are those of the fraction that it gives. -/
theorem exists_of_runOnParts {c : Construction} {p : Parts} (h : c.runOnParts = .ok p) :
    ∃ q, c.run = .ok q ∧ q.parts = p := by
  rw [runOnParts_eq] at h
  cases hq : c.run with
  | error fault =>
    rw [hq] at h
    cases h
  | ok q =>
    rw [hq] at h
    exact ⟨q, rfl, Except.ok.inj h⟩

theorem runOnParts_of_run {c : Construction} {q : Fraction} (h : c.run = .ok q) :
    c.runOnParts = .ok q.parts := by
  rw [runOnParts_eq, h]
  rfl

end Construction

/-- A number among the tokens of a text is what a block of the text is read as. -/
theorem Token.exists_block_of_spells {tokens : List Token} {s : Text} (h : Spells tokens s)
    {q : Fraction} (hq : .number q ∈ tokens) :
    ∃ block, block <:+: s ∧ Fraction.read block = .ok q := by
  have hcons : ∀ (c : Char) {s : Text}, (∃ block, block <:+: s ∧ Fraction.read block = .ok q) →
      ∃ block, block <:+: c :: s ∧ Fraction.read block = .ok q := by
    rintro c s ⟨block, hblock, hread⟩
    exact ⟨block, hblock.trans (List.suffix_cons c s).isInfix, hread⟩
  induction h with
  | nil => cases hq
  | @number l p tokens s hread _ ih =>
    rcases List.mem_cons.mp hq with hq | hq
    · cases hq
      exact ⟨l.text, (List.prefix_append l.text s).isInfix, hread⟩
    · obtain ⟨block, hblock, hread⟩ := ih hq
      exact ⟨block, hblock.trans (List.suffix_append l.text s).isInfix, hread⟩
  | operator op _ ih => exact hcons _ (ih (List.mem_of_ne_of_mem Token.noConfusion hq))
  | opening _ ih => exact hcons _ (ih (List.mem_of_ne_of_mem Token.noConfusion hq))
  | closing _ ih => exact hcons _ (ih (List.mem_of_ne_of_mem Token.noConfusion hq))

namespace Rules
open Draw

variable {σ : Type} [WordSource σ]

/-- The two integers of which a number may be made: a whole number below the bound over one, or
two integers of a proper fraction within the bound, in lowest terms or not. -/
def AllowsParts (rules : Rules) (n d : Nat) : Prop :=
  1 ≤ n ∧ (n < rules.bound ∧ d = 1 ∨ n < d ∧ d ≤ rules.bound)

/-- A number that is drawn is the quotient of the two integers that were drawn for it. -/
theorem exists_quotient_of_leaf (rules : Rules) {v : Valued}
    (h : (rules.leaf : Draw σ Valued).Gives (.ok v)) :
    ∃ q, v = .number q ∧
      ∃ n d : Nat, rules.AllowsParts n d ∧ (Construction.quotient n d).run = .ok q := by
  obtain ⟨whole, -, h⟩ := gives_bind_ok h
  cases whole with
  | true =>
    obtain ⟨⟨n, hn⟩, -, h⟩ := gives_bind_ok h
    obtain ⟨q, hq, h⟩ := gives_bind_ok h
    cases gives_pure h
    have hbound := rules.two_le_bound
    exact ⟨q, rfl, n, 1, ⟨hn.1, .inl ⟨by omega, rfl⟩⟩, gives_ofExcept hq⟩
  | false =>
    obtain ⟨⟨n, hn⟩, -, h⟩ := gives_bind_ok h
    obtain ⟨⟨d, hd⟩, -, h⟩ := gives_bind_ok h
    obtain ⟨q, hq, h⟩ := gives_bind_ok h
    cases gives_pure h
    exact ⟨q, rfl, n, d, ⟨hn.1, .inr ⟨hd.1, hd.2⟩⟩, gives_ofExcept hq⟩

/-- Every number of an expression was drawn as one. -/
theorem exists_quotient_of_mem_leaves (rules : Rules) (budget : Nat) {v : Valued}
    (h : (rules.expression budget : Draw σ Valued).Gives (.ok v)) {q : Fraction}
    (hq : q ∈ v.expr.leaves) :
    ∃ n d : Nat, rules.AllowsParts n d ∧ (Construction.quotient n d).run = .ok q := by
  induction budget using Nat.strong_induction_on generalizing v with
  | _ budget ih =>
    obtain ⟨table, htable, -, hattempt⟩ := rules.exists_of_expression h
    rcases rules.exists_of_attempt hattempt with
      ⟨w, hw, hfound⟩ | ⟨k, l, hk, hl, left, right, op, -, hleft, hright, -, hfound⟩
    · cases hfound
      obtain ⟨p, rfl, hp⟩ := rules.exists_quotient_of_leaf hw
      cases List.mem_singleton.mp hq
      exact hp
    · obtain ⟨a, b, hab, -, hexpr, -⟩ := Valued.exists_of_combine hfound.symm
      rw [hexpr, Expr.leaves, List.mem_append] at hq
      -- the operands are the two that were drawn, in either order
      rcases hab with ⟨rfl, rfl⟩ | ⟨rfl, rfl⟩
      · exact hq.elim (ih k hk hleft) (ih l hl hright)
      · exact hq.elim (ih l hl hright) (ih k hk hleft)

end Rules

/-- Bare parts stay in lowest terms under every construction and agree with the fractions;
so do the numbers of a text, the numbers of an exercise and the value of an expression. -/
theorem canonical_everywhere :
    (∀ c : Construction, c.runOnParts = c.run.map Fraction.parts) ∧
    (∀ (c : Construction) (p : Parts), c.runOnParts = .ok p →
      p.IsCanonical ∧ Parts.ofInts p.num p.den = .ok p) ∧
    (∀ (c : Construction) (q : Fraction), c.run = .ok q → q.IsCanonical) ∧
    (∀ (s : Text) (tokens : List Token) (q : Fraction), Token.ofText s = .ok tokens →
      .number q ∈ tokens → q.IsCanonical ∧ ∃ block, block <:+: s.filter (fun c => !isBlank c) ∧
        (Construction.read block).runOnParts = .ok q.parts) ∧
    (∀ {σ : Type} [WordSource σ] (rules : Rules) (s : σ) (v : Valued) (q : Fraction),
      (rules.exercise.start s).1 = .ok v → q ∈ v.expr.leaves → q.IsCanonical ∧
        ∃ n d : Nat, rules.AllowsParts n d ∧
          (Construction.quotient n d).runOnParts = .ok q.parts) ∧
    (∀ (e : Expr) (v : Fraction), e.value = .ok v →
      v.IsCanonical ∧ (Construction.ofExpr e).runOnParts = .ok v.parts) := by
  refine ⟨Construction.runOnParts_eq, ?_, fun _ q _ => q.isCanonical, ?_, ?_, ?_⟩
  · intro c p h
    obtain ⟨q, -, rfl⟩ := Construction.exists_of_runOnParts h
    refine ⟨q.isCanonical_parts, ?_⟩
    rw [Parts.ofInts_eq, Fraction.num_parts, Fraction.den_parts, q.isCanonical.2]
    rfl
  · intro s tokens q h hq
    obtain ⟨block, hblock, hread⟩ := Token.exists_block_of_spells (Token.spells_scan h) hq
    exact ⟨q.isCanonical, block, hblock, Construction.runOnParts_of_run hread⟩
  · intro σ _ rules s v q h hq
    obtain ⟨n, d, hallows, hrun⟩ :=
      rules.exists_quotient_of_mem_leaves rules.maxOperators ⟨s, h⟩ hq
    exact ⟨q.isCanonical, n, d, hallows, Construction.runOnParts_of_run hrun⟩
  · intro e v h
    rw [← Construction.run_ofExpr] at h
    exact ⟨v.isCanonical, Construction.runOnParts_of_run h⟩

/-- A construction with a negative mixed number and a sign below, the last number of a text, the
first number of an exercise and a difference of two numbers. -/
theorem canonical_everywhere_mixed :
    (∃ (c : Construction) (p : Parts) (q : Fraction),
      c = .apply .minus (.neg (.read "-1'6/4".toList)) (.quotient 7 (-14)) ∧
      c.runOnParts = .ok p ∧ p = ⟨3, 1⟩ ∧ p.IsCanonical ∧ Parts.ofInts p.num p.den = .ok p ∧
      c.run = .ok q ∧ q.IsCanonical) ∧
    (∃ (tokens : List Token) (q : Fraction), Token.ofText "1 2/8 - -1'1/2".toList = .ok tokens ∧
      .number q ∈ tokens ∧ q.parts = ⟨-3, 2⟩ ∧ q.IsCanonical) ∧
    (∃ (v : Valued) (q : Fraction),
      (Draw.start (Rules.mk 10 (by decide) 3 64).exercise (Script.mk [] 30)).1 = .ok v ∧
      q ∈ v.expr.leaves ∧ q.parts = ⟨9, 10⟩ ∧ q.IsCanonical) ∧
    (∃ (a b v : Fraction), a.parts = ⟨3, 2⟩ ∧ b.parts = ⟨-3, 2⟩ ∧
      (Expr.binary .minus (.number a) (.number b)).value = .ok v ∧ v.parts = ⟨3, 1⟩ ∧
      v.IsCanonical) := by
  obtain ⟨-, hparts, hrun, htokens, hleaves, hvalue⟩ := canonical_everywhere
  let a : Fraction := ⟨3 / 2, by decide +kernel, by decide +kernel⟩
  let b : Fraction := ⟨-3 / 2, by decide +kernel, by decide +kernel⟩
  let three : Fraction := ⟨3, by decide, by decide⟩
  refine ⟨?_, ?_, ?_, ?_⟩
  · let c : Construction := .apply .minus (.neg (.read "-1'6/4".toList)) (.quotient 7 (-14))
    have hp : c.runOnParts = .ok ⟨3, 1⟩ := by decide +kernel
    have hq : c.run = .ok three := by decide +kernel
    exact ⟨c, ⟨3, 1⟩, three, rfl, hp, rfl, (hparts c _ hp).1, (hparts c _ hp).2, hq, hrun c _ hq⟩
  · have hscan : Token.ofText "1 2/8 - -1'1/2".toList =
        .ok [.number a, .operator .minus, .number b] := by decide +kernel
    have hmem : Token.number b ∈ [.number a, .operator .minus, .number b] := by simp
    exact ⟨_, b, hscan, hmem, by decide +kernel, (htokens _ _ b hscan hmem).1⟩
  · have hdraw : (Draw.start (Rules.mk 10 (by decide) 3 64).exercise (Script.mk [] 30)).1.map
        (fun v => v.expr.leaves.map Fraction.parts) =
          .ok [⟨9, 10⟩, ⟨1, 2⟩, ⟨7, 1⟩, ⟨6, 1⟩] := by decide +kernel
    cases h : (Draw.start (Rules.mk 10 (by decide) 3 64).exercise (Script.mk [] 30)).1 with
    | error fault =>
      rw [h] at hdraw
      cases hdraw
    | ok v =>
      rw [h] at hdraw
      have hmap : v.expr.leaves.map Fraction.parts = [⟨9, 10⟩, ⟨1, 2⟩, ⟨7, 1⟩, ⟨6, 1⟩] :=
        Except.ok.inj hdraw
      have hmem : ⟨9, 10⟩ ∈ v.expr.leaves.map Fraction.parts := hmap ▸ List.mem_cons_self
      obtain ⟨q, hq, hnine⟩ := List.mem_map.mp hmem
      exact ⟨v, q, rfl, hq, hnine, (hleaves _ _ v q h hq).1⟩
  · have hthree : (Expr.binary .minus (.number a) (.number b)).value = .ok three := by
      decide +kernel
    exact ⟨a, b, three, by decide +kernel, by decide +kernel, hthree, by decide +kernel,
      (hvalue _ three hthree).1⟩

end FractionDrill
