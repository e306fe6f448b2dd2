import FractionDrill.Proofs.Expr.Grammar
import FractionDrill.Proofs.Fraction.Reading

/-!
# Scanning derived texts

A text that is derived by a chain is scanned into the tokens of that chain: the
longest run of number characters is a whole literal, because what follows one is
an operator, a closing parenthesis or the end, and a minus sign belongs to a
number exactly where the grammar expects an operand.

In the other direction every text that can be scanned is spelled by its tokens.
-/
namespace FractionDrill
open Text

namespace Token

/-- Whether a number that stands before the text ends there. -/
def StopsNumber (rest : Text) : Prop := ∀ c ∈ rest.head?, isNumberPart c = false

theorem stopsNumber_symbol (op : Operator) (rest : Text) : StopsNumber (op.symbol :: rest) := by
  intro c hc
  cases hc
  cases op <;> rfl

theorem stopsNumber_closing (rest : Text) : StopsNumber (')' :: rest) := by
  intro c hc
  cases hc
  rfl

theorem stopsNumber_nil : StopsNumber [] := by
  intro c hc
  cases hc

theorem takeWhile_append_of_stopsNumber {block rest : Text}
    (hblock : ∀ c ∈ block, isNumberPart c = true) (hrest : StopsNumber rest) :
    (block ++ rest).takeWhile isNumberPart = block := by
  rw [List.takeWhile_append_of_pos hblock]
  cases rest with
  | nil => simp
  | cons c rest => simp [hrest c rfl]

theorem dropWhile_append_of_stopsNumber {block rest : Text}
    (hblock : ∀ c ∈ block, isNumberPart c = true) (hrest : StopsNumber rest) :
    (block ++ rest).dropWhile isNumberPart = rest := by
  rw [List.dropWhile_append_of_pos hblock]
  cases rest with
  | nil => rfl
  | cons c rest => simp [hrest c rfl]

/-- Whether a number starts with the character, before the given rest. -/
def startsNumber (operandNext : Bool) (c : Char) (rest : Text) : Bool :=
  c.isDigit || (c == '-' && operandNext && startsWithDigit rest)

theorem scan_block {operandNext : Bool} {c : Char} {block rest : Text}
    (hstart : startsNumber operandNext c (block ++ rest) = true)
    (hblock : ∀ c ∈ block, isNumberPart c = true) (hrest : StopsNumber rest) :
    scan operandNext (c :: (block ++ rest)) = do
      let q ← Fraction.read (c :: block)
      let tokens ← scan false rest
      return .number q :: tokens := by
  unfold startsNumber at hstart
  rw [scan, if_pos hstart, takeWhile_append_of_stopsNumber hblock hrest,
    dropWhile_append_of_stopsNumber hblock hrest]

/-- Where an operand is expected, the longest block is the whole literal. -/
theorem scan_literal (l : Literal) {rest : Text} (hrest : StopsNumber rest) :
    scan true (l.text ++ rest) = do
      let q ← Fraction.read l.text
      let tokens ← scan false rest
      return .number q :: tokens := by
  obtain ⟨negative, shape⟩ := l
  obtain ⟨c, block, htext, hc⟩ := shape.text_eq_cons
  have hparts : ∀ x ∈ c :: block, isNumberPart x = true := fun x hx =>
    shape.isNumberPart_of_mem (htext ▸ hx)
  cases negative with
  | false =>
    have hl : (Literal.mk false shape).text = c :: block := htext
    have hstart : startsNumber true c (block ++ rest) = true := by simp [startsNumber, hc]
    rw [hl]
    exact scan_block hstart (fun x hx => hparts x (List.mem_cons_of_mem c hx)) hrest
  | true =>
    have hl : (Literal.mk true shape).text = '-' :: (c :: block) := congrArg ('-' :: ·) htext
    have hstart : startsNumber true '-' (c :: block ++ rest) = true := by
      simp [startsNumber, startsWithDigit, hc]
    rw [hl]
    exact scan_block hstart hparts hrest

theorem scan_symbol (op : Operator) (rest : Text) :
    scan false (op.symbol :: rest) = do
      let tokens ← scan true rest
      return .operator op :: tokens := by
  cases op <;> rw [scan] <;> rfl

theorem scan_opening (operandNext : Bool) (rest : Text) :
    scan operandNext ('(' :: rest) = do
      let tokens ← scan true rest
      return .opening :: tokens := by
  rw [scan]
  rfl

theorem scan_closing (operandNext : Bool) (rest : Text) :
    scan operandNext (')' :: rest) = do
      let tokens ← scan false rest
      return .closing :: tokens := by
  rw [scan]
  rfl

mutual

/-- Scanning reads the numbers of an operand and goes on behind it. -/
theorem scan_operand : ∀ (operand : Operand Literal) {rest : Text}, StopsNumber rest →
    scan true (operand.text ++ rest) = do
      let read ← operand.readNumbers
      let tokens ← scan false rest
      return read.tokens ++ tokens
  | .number l, rest, hrest => by
      rw [Operand.text, scan_literal l hrest, Operand.readNumbers, Operand.mapM, bind_assoc]
      rfl
  | .group chain, rest, hrest => by
      rw [Operand.text, List.cons_append, List.append_assoc, scan_opening, List.cons_append,
        List.nil_append, scan_chain chain (stopsNumber_closing rest), scan_closing]
      simp [Operand.readNumbers, Operand.mapM, Chain.readNumbers, Operand.tokens]

theorem scan_chain : ∀ (chain : Chain Literal) {rest : Text}, StopsNumber rest →
    scan true (chain.text ++ rest) = do
      let read ← chain.readNumbers
      let tokens ← scan false rest
      return read.tokens ++ tokens
  | .single operand, rest, hrest => by
      rw [Chain.text, scan_operand operand hrest]
      simp [Operand.readNumbers, Chain.readNumbers, Chain.mapM, Chain.tokens]
  | .join left op right, rest, hrest => by
      rw [Chain.text, List.append_assoc, List.cons_append,
        scan_chain left (stopsNumber_symbol op _), scan_symbol, scan_operand right hrest]
      simp only [Operand.readNumbers, Chain.readNumbers, Chain.mapM, Chain.tokens, bind_assoc,
        pure_bind, List.append_assoc, List.cons_append]

end

/-- A list of tokens spells a text, each number by some literal that is read as it. -/
inductive Spells : List Token → Text → Prop
  | nil : Spells [] []
  | number {l : Literal} {q : Fraction} {tokens : List Token} {s : Text} :
      Fraction.read l.text = .ok q → Spells tokens s → Spells (.number q :: tokens) (l.text ++ s)
  | operator {tokens : List Token} {s : Text} (op : Operator) :
      Spells tokens s → Spells (.operator op :: tokens) (op.symbol :: s)
  | opening {tokens : List Token} {s : Text} :
      Spells tokens s → Spells (.opening :: tokens) ('(' :: s)
  | closing {tokens : List Token} {s : Text} :
      Spells tokens s → Spells (.closing :: tokens) (')' :: s)

theorem spells_ofChar {c : Char} {token : Token} {tokens : List Token} {s : Text}
    (h : ofChar c = .ok token) (hs : Spells tokens s) : Spells (token :: tokens) (c :: s) := by
  unfold ofChar at h
  split at h
  · cases h
    exact .opening hs
  · cases h
    exact .closing hs
  · split at h
    · rename_i op hop
      cases h
      rw [Operator.symbol_of_ofSymbol? hop]
      exact .operator op hs
    · cases h

theorem fault_of_ofChar {c : Char} {fault : Fault} (h : ofChar c = .error fault) :
    ∃ flaw, fault = .malformedExpression flaw := by
  unfold ofChar at h
  split at h
  · cases h
  · cases h
  · split at h
    · cases h
    · cases h
      exact ⟨_, rfl⟩

/-- The tokens of a text spell it. -/
theorem spells_scan {operandNext : Bool} {s : Text} {tokens : List Token}
    (h : scan operandNext s = .ok tokens) : Spells tokens s := by
  induction operandNext, s using scan.induct generalizing tokens with
  | case1 operandNext =>
    rw [scan] at h
    cases h
    exact .nil
  | case2 operandNext c rest hstart ih =>
    rw [scan, if_pos hstart] at h
    obtain ⟨q, hq, h⟩ := Fault.bind_eq_ok_iff.mp h
    obtain ⟨more, hmore, h⟩ := Fault.bind_eq_ok_iff.mp h
    cases h
    obtain ⟨l, hl⟩ := Fraction.exists_literal_of_read hq
    have hsplit : c :: rest = l.text ++ rest.dropWhile isNumberPart := by
      rw [hl, List.cons_append, List.takeWhile_append_dropWhile]
    rw [hsplit]
    exact .number (hl ▸ hq) (ih hmore)
  | case3 operandNext c rest hstart ih =>
    rw [scan, if_neg hstart] at h
    obtain ⟨token, htoken, h⟩ := Fault.bind_eq_ok_iff.mp h
    obtain ⟨more, hmore, h⟩ := Fault.bind_eq_ok_iff.mp h
    cases h
    exact spells_ofChar htoken (ih token hmore)

theorem spells_append {first second : List Token} {s : Text} (h : Spells (first ++ second) s) :
    ∃ s₁ s₂, s = s₁ ++ s₂ ∧ Spells first s₁ ∧ Spells second s₂ := by
  induction first generalizing s with
  | nil => exact ⟨[], s, rfl, .nil, h⟩
  | cons token first ih =>
    cases h with
    | number hl h =>
      obtain ⟨s₁, s₂, rfl, h₁, h₂⟩ := ih h
      exact ⟨_, s₂, (List.append_assoc ..).symm, .number hl h₁, h₂⟩
    | operator op h =>
      obtain ⟨s₁, s₂, rfl, h₁, h₂⟩ := ih h
      exact ⟨_, s₂, rfl, .operator op h₁, h₂⟩
    | opening h =>
      obtain ⟨s₁, s₂, rfl, h₁, h₂⟩ := ih h
      exact ⟨_, s₂, rfl, .opening h₁, h₂⟩
    | closing h =>
      obtain ⟨s₁, s₂, rfl, h₁, h₂⟩ := ih h
      exact ⟨_, s₂, rfl, .closing h₁, h₂⟩

mutual

/-- A text that is spelled by the tokens of an operand is derived by one that reads as it. -/
theorem exists_operand_of_spells : ∀ (operand : Operand Fraction) {s : Text},
    Spells operand.tokens s →
    ∃ written : Operand Literal, written.text = s ∧ written.readNumbers = .ok operand
  | .number q, _, h => by
      rw [Operand.tokens] at h
      cases h with
      | @number l _ _ _ hl h =>
        cases h
        refine ⟨.number l, ?_, ?_⟩
        · rw [Operand.text, List.append_nil]
        · rw [Operand.readNumbers, Operand.mapM, hl]
          rfl
  | .group chain, _, h => by
      rw [Operand.tokens] at h
      cases h with
      | opening h =>
        obtain ⟨s₁, s₂, rfl, h₁, h₂⟩ := spells_append h
        obtain ⟨written, rfl, hread⟩ := exists_chain_of_spells chain h₁
        cases h₂ with
        | closing h₂ =>
          cases h₂
          refine ⟨.group written, rfl, ?_⟩
          rw [Chain.readNumbers] at hread
          rw [Operand.readNumbers, Operand.mapM, hread]
          rfl

theorem exists_chain_of_spells : ∀ (chain : Chain Fraction) {s : Text},
    Spells chain.tokens s →
    ∃ written : Chain Literal, written.text = s ∧ written.readNumbers = .ok chain
  | .single operand, _, h => by
      rw [Chain.tokens] at h
      obtain ⟨written, rfl, hread⟩ := exists_operand_of_spells operand h
      refine ⟨.single written, rfl, ?_⟩
      rw [Operand.readNumbers] at hread
      rw [Chain.readNumbers, Chain.mapM, hread]
      rfl
  | .join left op right, _, h => by
      rw [Chain.tokens] at h
      obtain ⟨s₁, s₂, rfl, h₁, h₂⟩ := spells_append h
      obtain ⟨writtenLeft, rfl, hleft⟩ := exists_chain_of_spells left h₁
      cases h₂ with
      | operator _ h₂ =>
        obtain ⟨writtenRight, rfl, hright⟩ := exists_operand_of_spells right h₂
        refine ⟨.join writtenLeft op writtenRight, rfl, ?_⟩
        rw [Chain.readNumbers] at hleft
        rw [Operand.readNumbers] at hright
        rw [Chain.readNumbers, Chain.mapM, hleft, hright]
        rfl

end

/-- A number that cannot be read and a character that is no token are the only faults of
scanning that are not arithmetic. -/
theorem fault_of_scan {operandNext : Bool} {s : Text} {fault : Fault}
    (h : scan operandNext s = .error fault) :
    fault.IsArithmetic ∨ (∃ text, fault = .malformedNumber text) ∨
      ∃ flaw, fault = .malformedExpression flaw := by
  induction operandNext, s using scan.induct with
  | case1 operandNext =>
    rw [scan] at h
    cases h
  | case2 operandNext c rest hstart ih =>
    rw [scan, if_pos hstart] at h
    simp only [Fault.bind_eq_error_iff] at h
    rcases h with h | ⟨q, -, h | ⟨more, -, h⟩⟩
    · rcases Fraction.fault_of_read h with h | h
      · exact .inr (.inl ⟨_, h⟩)
      · exact .inl h
    · exact ih h
    · cases h
  | case3 operandNext c rest hstart ih =>
    rw [scan, if_neg hstart] at h
    simp only [Fault.bind_eq_error_iff] at h
    rcases h with h | ⟨token, -, h | ⟨more, -, h⟩⟩
    · exact .inr (.inr (fault_of_ofChar h))
    · exact ih token h
    · cases h

mutual

/-- Literals are never malformed, so a derivation is unreadable only by arithmetic. -/
theorem fault_of_readOperand : ∀ (operand : Operand Literal) {fault : Fault},
    operand.readNumbers = .error fault → fault.IsArithmetic
  | .number l, _, h => by
      rw [Operand.readNumbers, Operand.mapM] at h
      rcases Fault.bind_eq_error_iff.mp h with h | ⟨q, -, h⟩
      · rw [Fraction.read_text] at h
        exact Literal.fault_of_outcome h
      · cases h
  | .group chain, _, h => by
      rw [Operand.readNumbers, Operand.mapM] at h
      rcases Fault.bind_eq_error_iff.mp h with h | ⟨q, -, h⟩
      · exact fault_of_readChain chain h
      · cases h

theorem fault_of_readChain : ∀ (chain : Chain Literal) {fault : Fault},
    chain.readNumbers = .error fault → fault.IsArithmetic
  | .single operand, _, h => by
      rw [Chain.readNumbers, Chain.mapM] at h
      rcases Fault.bind_eq_error_iff.mp h with h | ⟨q, -, h⟩
      · exact fault_of_readOperand operand h
      · cases h
  | .join left op right, _, h => by
      rw [Chain.readNumbers, Chain.mapM] at h
      simp only [Fault.bind_eq_error_iff] at h
      rcases h with h | ⟨a, -, h | ⟨b, -, h⟩⟩
      · exact fault_of_readChain left h
      · exact fault_of_readOperand right h
      · cases h

end

end Token
end FractionDrill
