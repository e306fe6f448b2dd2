import FractionDrill.Exercise.Problem
import FractionDrill.Proofs.Fraction.Literal

/-!
# The characters of written numbers and expressions

A written expression consists of ink and single spaces: its ink is digits, signs,
operators and parentheses, and never a blank or an equals sign. It starts and ends
with ink, so nothing is lost where a text is trimmed.
-/
namespace FractionDrill
open Text

/-- A character that stands in a written expression and is not a space. -/
def IsInk (c : Char) : Prop := isBlank c = false ∧ c ≠ '='

theorem isInk_of_isDigit {c : Char} (h : c.isDigit = true) : IsInk c := by
  simp only [Char.isDigit, Bool.and_eq_true, decide_eq_true_eq] at h
  have hlow : 48 ≤ c.toNat := h.1
  have hhigh : c.toNat ≤ 57 := h.2
  constructor
  · simp [isBlank]
    omega
  · rintro rfl
    simp at hhigh

theorem isInk_of_isNumberPart {c : Char} (h : Token.isNumberPart c = true) : IsInk c := by
  simp only [Token.isNumberPart, Bool.or_eq_true, beq_iff_eq] at h
  rcases h with (h | rfl) | rfl
  · exact isInk_of_isDigit h
  · exact ⟨rfl, by decide⟩
  · exact ⟨rfl, by decide⟩

theorem isInk_symbol (op : Operator) : IsInk op.symbol := by
  cases op <;> exact ⟨rfl, by decide⟩

theorem isInk_of_mem_fraction {a : Fraction} {c : Char} (h : c ∈ a.render) : IsInk c := by
  rw [← a.text_literal] at h
  rcases a.literal.minus_or_isNumberPart h with rfl | h
  · exact ⟨rfl, by decide⟩
  · exact isInk_of_isNumberPart h

theorem isInk_of_mem_expr {e : Expr} {c : Char} (h : c ∈ e.render) : c = ' ' ∨ IsInk c := by
  induction e with
  | number q => exact .inr (isInk_of_mem_fraction h)
  | binary op left right ihl ihr =>
    simp only [Expr.render, List.cons_append, List.mem_cons, List.mem_append,
      List.not_mem_nil, or_false] at h
    rcases h with rfl | (h | rfl | rfl | rfl | h) | rfl
    · exact .inr ⟨rfl, by decide⟩
    · exact ihl h
    · exact .inl rfl
    · exact .inr (isInk_symbol op)
    · exact .inl rfl
    · exact ihr h
    · exact .inr ⟨rfl, by decide⟩

/-- A text that starts and ends with ink. -/
def Inked (s : Text) : Prop :=
  (∃ c rest, s = c :: rest ∧ IsInk c) ∧ ∃ rest c, s = rest ++ [c] ∧ IsInk c

theorem inked_of_forall {s : Text} (hne : s ≠ []) (h : ∀ c ∈ s, IsInk c) : Inked s := by
  constructor
  · obtain ⟨c, rest, rfl⟩ := List.exists_cons_of_ne_nil hne
    exact ⟨c, rest, rfl, h c List.mem_cons_self⟩
  · refine ⟨s.dropLast, s.getLast hne, (List.dropLast_concat_getLast hne).symm, ?_⟩
    exact h _ (List.getLast_mem hne)

theorem render_ne_nil (a : Fraction) : a.render ≠ [] := by
  obtain ⟨c, rest, hshape, -⟩ := a.literal.shape.text_eq_cons
  rw [← a.text_literal, Literal.text, hshape]
  simp

theorem inked_fraction (a : Fraction) : Inked a.render :=
  inked_of_forall (render_ne_nil a) fun _ hc => isInk_of_mem_fraction hc

theorem inked_expr (e : Expr) : Inked e.render := by
  cases e with
  | number q => exact inked_fraction q
  | binary op left right =>
    constructor
    · exact ⟨'(', _, rfl, rfl, by decide⟩
    · exact ⟨'(' :: left.render ++ ' ' :: op.symbol :: ' ' :: right.render, ')', by
        simp [Expr.render], rfl, by decide⟩

theorem trimStart_append {s : Text} (h : Inked s) (after : Text) :
    trimStart (s ++ after) = s ++ after := by
  obtain ⟨⟨c, rest, hs, hc⟩, -⟩ := h
  rw [hs, List.cons_append, trimStart, List.dropWhile_cons_of_neg]
  simp [hc.1]

theorem trimEnd_append {s : Text} (h : Inked s) {blanks : Text}
    (hblanks : ∀ c ∈ blanks, isBlank c = true) : trimEnd (s ++ blanks) = s := by
  obtain ⟨-, ⟨before, c, hs, hc⟩⟩ := h
  have hdrop : (c :: before.reverse).dropWhile isBlank = c :: before.reverse := by
    apply List.dropWhile_cons_of_neg
    simp [hc.1]
  have hreverse : ∀ d ∈ blanks.reverse, isBlank d = true :=
    fun d hd => hblanks d (List.mem_reverse.mp hd)
  rw [trimEnd, List.reverse_append, List.dropWhile_append_of_pos hreverse, hs,
    List.reverse_append, List.reverse_singleton, List.singleton_append, hdrop, List.reverse_cons,
    List.reverse_reverse]

/-- Nothing but the blanks is lost where a text is trimmed. -/
theorem trim_append {s : Text} (h : Inked s) {blanks : Text}
    (hblanks : ∀ c ∈ blanks, isBlank c = true) : trim (s ++ blanks) = s := by
  rw [trim, trimStart_append h, trimEnd_append h hblanks]

theorem trim_inked {s : Text} (h : Inked s) : trim s = s := by
  have hnone : ∀ c ∈ ([] : Text), isBlank c = true := by simp
  have htrim := trim_append h hnone
  rwa [List.append_nil] at htrim

end FractionDrill
