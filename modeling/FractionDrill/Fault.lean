import FractionDrill.Text.Numeral
import FractionDrill.Text.Quoted

/-!
# What can go wrong in arithmetic, reading and drawing

Each fault names a cause and keeps what its message quotes. The wording stands
in `Flaw.message` and `Fault.message` only; no other module inspects it.
-/
namespace FractionDrill

/-- Why a text or a list of tokens is no expression. -/
inductive Flaw where
  /-- There is no token at all. -/
  | empty
  | unexpectedCharacter (c : Char)
  | unreadableNumber (text : Text)
  | numberAfterValue
  | groupAfterValue
  /-- A closing parenthesis follows an operator or an opening parenthesis. -/
  | missingBeforeClosing
  | unmatchedClosing
  | missingLeftOperand
  /-- The last token is an operator or an opening parenthesis. -/
  | missingLastOperand
  | unclosedGroup
  /-- An operator of a postfix list finds fewer than two operands. -/
  | missingOperand
  | parenthesisInPostfix
  /-- A postfix list leaves no expression, or more than one. -/
  | notOneExpression
deriving DecidableEq, Repr

inductive Fault where
  | divisionByZero
  | malformedNumber (text : Text)
  | malformedExpression (flaw : Flaw)
  /-- A part of a fraction, or an intermediate result, leaves the machine range. -/
  | overflow
  /-- The bound on the numbers of an exercise leaves no number to draw. -/
  | boundTooSmall (bound : Int)
  | tooFewDistinct (wanted found : Nat)
deriving DecidableEq, Repr

namespace Fault

variable {ε α β γ : Type}

@[simp] theorem ok_bind (a : α) (f : α → Except ε β) : Except.ok a >>= f = f a := rfl

@[simp] theorem error_bind (fault : ε) (f : α → Except ε β) :
    Except.error fault >>= f = Except.error fault := rfl

/-- Two steps give a result only where both do. -/
theorem bind_eq_ok_iff {x : Except ε α} {f : α → Except ε β} {b : β} :
    x >>= f = .ok b ↔ ∃ a, x = .ok a ∧ f a = .ok b := by
  cases x with
  | error fault => simp [bind, Except.bind]
  | ok a => simp [bind, Except.bind]

/-- Two steps fail where the first does, or where the second does after it. -/
theorem bind_eq_error_iff {x : Except ε α} {f : α → Except ε β} {fault : ε} :
    x >>= f = .error fault ↔ x = .error fault ∨ ∃ a, x = .ok a ∧ f a = .error fault := by
  cases x with
  | error fault => simp [bind, Except.bind]
  | ok a => simp [bind, Except.bind]

/-- The fault of the first step is that of both. -/
theorem ne_error_of_bind {x : Except ε α} {f : α → Except ε β} {fault : ε}
    (h : x >>= f ≠ .error fault) : x ≠ .error fault := by
  rintro rfl
  exact h rfl

/-- A fault can be told otherwise without changing a result. -/
theorem mapError_eq_ok_iff {ε' : Type} {x : Except ε α} {f : ε → ε'} {a : α} :
    x.mapError f = .ok a ↔ x = .ok a := by
  cases x with
  | error fault => exact iff_of_false nofun nofun
  | ok b =>
    change (Except.ok b : Except ε' α) = .ok a ↔ _
    simp only [Except.ok.injEq]

theorem map_eq_ok_iff {x : Except ε α} {f : α → β} {b : β} :
    x.map f = .ok b ↔ ∃ a, x = .ok a ∧ f a = b := by
  cases x <;> simp [Except.map]

theorem map_bind (x : Except ε α) (f : α → Except ε β) (g : β → γ) :
    (x >>= f).map g = x >>= fun a => (f a).map g := by
  cases x <;> rfl

theorem bind_map (x : Except ε α) (g : α → β) (f : β → Except ε γ) :
    x.map g >>= f = x >>= fun a => f (g a) := by
  cases x <;> rfl

/-- A run of steps fails only with a fault of one of the steps. -/
theorem of_foldlM {σ : Type} {step : σ → α → Except ε σ} {P : ε → Prop}
    (hstep : ∀ {s : σ} {a : α} {fault : ε}, step s a = .error fault → P fault) {items : List α}
    {s : σ} {fault : ε} (h : items.foldlM step s = .error fault) : P fault := by
  induction items generalizing s with
  | nil => cases h
  | cons a rest ih =>
    rw [List.foldlM_cons] at h
    rcases bind_eq_error_iff.mp h with h | ⟨u, -, h⟩
    · exact hstep h
    · exact ih h

/-- A list of steps fails with the fault of one of them. -/
theorem exists_of_mapM_error {f : α → Except ε β} {items : List α} {fault : ε}
    (h : items.mapM f = .error fault) :
    ∃ a ∈ items, f a = .error fault := by
  induction items with
  | nil => cases h
  | cons a rest ih =>
    rw [List.mapM_cons] at h
    rcases bind_eq_error_iff.mp h with h | ⟨b, -, h⟩
    · exact ⟨a, List.mem_cons_self, h⟩
    · rcases bind_eq_error_iff.mp h with h | ⟨bs, -, h⟩
      · obtain ⟨c, hc, hfault⟩ := ih h
        exact ⟨c, List.mem_cons_of_mem a hc, hfault⟩
      · cases h

/-- A list of steps succeeds only where each of them does. -/
theorem ok_of_mapM_ok {f : α → Except ε β} {items : List α} {results : List β}
    (h : items.mapM f = .ok results) {a : α} (ha : a ∈ items) : ∃ b, f a = .ok b := by
  induction items generalizing results with
  | nil => cases ha
  | cons c rest ih =>
    rw [List.mapM_cons] at h
    obtain ⟨b, hb, h⟩ := bind_eq_ok_iff.mp h
    obtain ⟨bs, hbs, -⟩ := bind_eq_ok_iff.mp h
    rcases List.mem_cons.mp ha with ha | ha
    · exact ⟨b, ha ▸ hb⟩
    · exact ih hbs ha

end Fault

def Flaw.message : Flaw → Text
  | empty => "expression vide".toList
  | unexpectedCharacter c => "caractère inattendu: '".toList ++ [c, '\x27']
  | unreadableNumber text => "nombre illisible : ".toList ++ text
  | numberAfterValue => "nombre inattendu après une valeur".toList
  | groupAfterValue => "'(' inattendue après une valeur".toList
  | missingBeforeClosing => "opérande manquant avant ')'".toList
  | unmatchedClosing => "')' sans '(' correspondante".toList
  | missingLeftOperand => "opérateur sans opérande gauche".toList
  | missingLastOperand => "opérande manquant en fin d’expression".toList
  | unclosedGroup => "parenthèses non fermées".toList
  | missingOperand => "opérande manquant".toList
  | parenthesisInPostfix => "parenthèse inattendue en RPN".toList
  | notOneExpression => "expression invalide".toList

def Fault.message : Fault → Text
  | divisionByZero => "division par zéro".toList
  | malformedNumber text => "nombre invalide : ".toList ++ Text.quoted text
  | malformedExpression flaw => "expression invalide : ".toList ++ flaw.message
  | overflow => "dépassement de capacité (i64)".toList
  | boundTooSmall bound =>
      "plage invalide : ".toList ++ Text.integer bound ++ " (minimum 2)".toList
  | tooFewDistinct wanted found =>
      "seulement ".toList ++ Text.natural found ++ " problèmes distincts sur ".toList ++
        Text.natural wanted ++ " demandés".toList

end FractionDrill
