import FractionDrill.Proofs.Fraction.Parts

/-!
# Written fractions read back

Every pair of words in lowest terms is a fraction, and a fraction is read back from
its text, with no step of the reader too large. This includes the mixed numbers of
the largest size, whose whole part is multiplied by the denominator again. So the
text of a fraction tells it from all others.
-/
namespace FractionDrill

namespace Parts

/-- Parts in lowest terms are those of a fraction. -/
theorem IsCanonical.exists_fraction {p : Parts} (h : p.IsCanonical) :
    ∃ a : Fraction, a.parts = p := by
  obtain ⟨n, d⟩ := p
  obtain ⟨d, rfl⟩ := Int.eq_ofNat_of_zero_le (Int.le_of_lt h.den_pos)
  have hnonzero : d ≠ 0 := by
    rintro rfl
    exact absurd h.den_pos (Int.lt_irrefl 0)
  have hnum : n.natAbs ≤ maxPart :=
    Fraction.natAbs_le_maxPart_iff.mpr ⟨h.num_isWord, h.num_ne_least⟩
  have hden : d ≤ maxPart :=
    Fraction.natAbs_le_maxPart_iff.mpr ⟨h.den_isWord, h.den_ne_least⟩
  exact ⟨⟨⟨n, d, hnonzero, h.gcd_eq_one⟩, hnum, hden⟩, rfl⟩

end Parts

namespace Fraction

theorem parts_injective {a b : Fraction} (h : a.parts = b.parts) : a = b := by
  have hnum : a.num = b.num := congrArg Parts.num h
  have hden : (a.den : Int) = b.den := congrArg Parts.den h
  exact ext_value (Rat.ext hnum (Int.ofNat_inj.mp hden))

theorem render_injective {a b : Fraction} (h : a.render = b.render) : a = b := by
  have hread : read a.render = .ok b := by rw [h, read_render]
  rw [read_render] at hread
  exact Except.ok.inj hread

/-- The pairs in lowest terms are the fractions; each of them is read back from its text, on
fractions as on bare parts, and its text is that of no other. -/
theorem written_reads_back :
    (∀ p : Parts, p.IsCanonical → ∃! a : Fraction, a.parts = p) ∧
    (∀ a : Fraction, a.parts.IsCanonical ∧ read a.render = .ok a ∧
      Parts.read a.render = .ok a.parts) ∧
    (∀ a b : Fraction, a.render = b.render ↔ a = b) := by
  refine ⟨?_, ?_, ?_⟩
  · intro p hp
    obtain ⟨a, ha⟩ := hp.exists_fraction
    exact ⟨a, ha, fun b hb => parts_injective (hb.trans ha.symm)⟩
  · intro a
    refine ⟨a.isCanonical_parts, read_render a, ?_⟩
    rw [Parts.read_eq, read_render]
    rfl
  · intro a b
    constructor
    · exact render_injective
    · rintro rfl
      rfl

/-- The mixed numbers with the least numerator and with the largest denominator. -/
theorem written_reads_back_at_limits :
    (∃ p : Parts, p = ⟨-0x7fffffffffffffff, 2⟩ ∧ p.IsCanonical ∧ ∃! a : Fraction, a.parts = p) ∧
    (∃ a : Fraction, a.parts = ⟨-0x7fffffffffffffff, 2⟩ ∧
      a.render = "-4611686018427387903'1/2".toList ∧ read a.render = .ok a) ∧
    (∃ a : Fraction, a.parts = ⟨0x7fffffffffffffff, 0x7ffffffffffffffe⟩ ∧
      a.render = "1'1/9223372036854775806".toList ∧ read a.render = .ok a) := by
  obtain ⟨hpairs, hread, -⟩ := written_reads_back
  let a : Fraction := ⟨mkRat (-0x7fffffffffffffff) 2, by decide +kernel, by decide +kernel⟩
  let b : Fraction :=
    ⟨mkRat 0x7fffffffffffffff 0x7ffffffffffffffe, by decide +kernel, by decide +kernel⟩
  have hparts : a.parts = ⟨-0x7fffffffffffffff, 2⟩ := by decide +kernel
  have hcanonical : (⟨-0x7fffffffffffffff, 2⟩ : Parts).IsCanonical := by
    constructor <;> decide +kernel
  exact ⟨⟨_, rfl, hcanonical, hpairs _ hcanonical⟩,
    ⟨a, hparts, by decide +kernel, (hread a).2.1⟩,
    ⟨b, by decide +kernel, by decide +kernel, (hread b).2.1⟩⟩

end Fraction
end FractionDrill
